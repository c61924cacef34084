import Ulockmgr.Owner.Grants

/-!
# Answers and grants agree

What a client is told about a command that sets a lock is what became of it, as long as the
first attempt of every worker is refused.
-/

namespace Ulockmgr.Owner

/-- How a worker came to its second attempt, and what a failed lookup answers. -/
structure Request.Marks (request : Request) : Prop where
  second : request.second ≠ none → request.masked = some (.ok ()) ∧
    request.unmasked = some (.ok ()) ∧ request.spawned = some .tracked ∧
      request.found = some true ∧ task request.message = .setLockBlocking
  missing : request.found = some false → (request.pc = .reply ∨ request.pc = .finished) ∧
    (∃ errno, request.out = .error errno) ∧ ∀ reply ∈ request.replies, reply = request.out

section MarksStep
variable {s : State} {a : Action} (served : Served s)
  (attempts : ∀ e, Attempts (s.request e))
  (transcript : ∀ e, (s.request e).pc ≠ .idle → (task (s.request e).message).Locks →
    (s.request e).Transcript)
  (inv : ∀ e, (s.request e).Marks) (enabled : Enabled s a)

include served attempts transcript inv enabled in
theorem marks_second_next (e : RequestId) (decided : ((next s a).request e).second ≠ none) :
    ((next s a).request e).masked = some (.ok ()) ∧
      ((next s a).request e).unmasked = some (.ok ()) ∧
        ((next s a).request e).spawned = some .tracked ∧
          ((next s a).request e).found = some true ∧
            task ((next s a).request e).message = .setLockBlocking := by
  by_cases own : e = a.actor
  · subst own
    have old := (inv a.actor).second
    have late := (attempts a.actor).late
    revert decided
    cases a with
    | setlkw e result =>
        have place := enabled.1
        have blocking : task (s.request e).message = .setLockBlocking := by
          have serves := served.serves e
          rw [place] at serves
          exact serves (by decide)
        have shape := transcript e (by rw [place]; decide) (by rw [blocking]; trivial)
        simp only [Request.Transcript, place] at shape
        have found := served.found e (by rw [place]; trivial)
        simp [next, Action.actor, blocking, shape.1, shape.2.1, shape.2.2.1, found]
    | _ =>
        simp only [Enabled, Action.actor] at enabled old late ⊢
        simp only [next]
        (repeat' split) <;> simp_all [Pc.Late, Request.idle]
  · rw [request_next_of_ne s own] at decided ⊢
    exact (inv e).second decided

include served enabled in
/-- Where a lookup that failed comes from. -/
theorem missing_cases {e : RequestId} (missing : ((next s a).request e).found = some false) :
    (s.request e).found = some false ∨
      (a = .mapGet e ∨ a = .mapRemove e) ∧ s.descriptors (s.request e).message.id = none := by
  have early := served.early e
  by_cases own : e = a.actor
  · subst own
    revert missing
    cases a <;> simp only [Enabled, Action.actor] at enabled early ⊢ <;> simp only [next] <;>
      (repeat' split) <;> simp_all [Request.idle]
  · rw [request_next_of_ne s own] at missing
    exact .inl missing

include enabled in
theorem out_next {e : RequestId}
    (place : (s.request e).pc = .reply ∨ (s.request e).pc = .finished) :
    ((next s a).request e).out = (s.request e).out ∧
      (((next s a).request e).replies = (s.request e).replies ∨
        ((next s a).request e).replies = (s.request e).replies ++ [(s.request e).out]) := by
  by_cases own : e = a.actor
  · subst own
    cases a <;> simp only [Enabled, Action.actor] at enabled place ⊢ <;> simp only [next] <;>
      (repeat' split) <;> simp_all
  · rw [request_next_of_ne s own]
    exact ⟨rfl, .inl rfl⟩

include served transcript inv enabled in
theorem marks_missing_next (e : RequestId) (missing : ((next s a).request e).found = some false) :
    (((next s a).request e).pc = .reply ∨ ((next s a).request e).pc = .finished) ∧
      (∃ errno, ((next s a).request e).out = .error errno) ∧
        ∀ reply ∈ ((next s a).request e).replies, reply = ((next s a).request e).out := by
  rcases missing_cases served enabled missing with before | ⟨looks, nothing⟩
  · obtain ⟨place, errno, all⟩ := (inv e).missing before
    obtain ⟨out, replies⟩ := out_next enabled place
    refine ⟨over_next enabled place, by rw [out]; exact errno, ?_⟩
    intro reply member
    rw [out]
    rcases replies with same | written
    · rw [same] at member
      exact all reply member
    · rw [written, List.mem_append, List.mem_singleton] at member
      rcases member with old | new
      · exact all reply old
      · exact new
  · have running : (s.request e).pc ≠ .idle ∧ (s.request e).pc ≠ .finished := by
      rcases looks with rfl | rfl <;> simp only [Enabled] at enabled <;> rw [enabled] <;> decide
    have serves := served.serves e running.1
    have silent : (s.request e).replies = [] := by
      rcases looks with rfl | rfl
      · simp only [Enabled] at enabled
        by_cases blocking : task (s.request e).message = .setLockBlocking
        · have shape := transcript e running.1 (by rw [blocking]; trivial)
          simpa only [Request.Transcript, enabled] using shape
        · exact served.silent e blocking running.2
      · simp only [Enabled] at enabled
        rw [enabled] at serves
        have unregister : task (s.request e).message = .unregister := serves
        exact served.silent e (by rw [unregister]; decide) running.2
    rcases looks with rfl | rfl <;> simp [next, nothing, silent]

end MarksStep

theorem reachable_marks {s : State} (reached : machine.Reachable s) (e : RequestId) :
    (s.request e).Marks := by
  induction reached generalizing e with
  | initial starts =>
      cases starts
      constructor <;> simp [initial, Request.idle]
  | step reached enabled _ ih =>
      have served := reachable_served reached
      have transcript := reachable_transcript reached
      exact ⟨marks_second_next served (reachable_attempts reached) transcript ih enabled e,
        marks_missing_next served transcript ih enabled e⟩

theorem Request.AnswersFirst.pending_of_first {request : Request} {reply : Reply}
    (answers : request.AnswersFirst reply)
    (first : request.first = none ∨ request.first = some (.error Errno.AGAIN)) :
    ∃ id, reply = .ok (.lockCommand (.pending id)) := by
  rcases answers with ⟨_, same⟩ | ⟨⟨other, tried, settled⟩, _⟩
  · exact ⟨_, same⟩
  · rcases first with none_ | again
    · rw [none_] at tried
      cases tried
    · rw [again] at tried
      cases tried
      exact (settled rfl).elim

/-- A lock operation is still to come only while the client has no result. -/
theorem operation_replies {s : State} {a : Action} (enabled : Enabled s a) {e : RequestId}
    {result : Fcntl} (performs : a.operation = some (e, result))
    (transcript : (s.request e).Transcript)
    (first : (s.request e).first = none ∨ (s.request e).first = some (.error Errno.AGAIN)) :
    ((s.request e).replies = [] ∨ ∃ id, (s.request e).replies = [.ok (.lockCommand (.pending id))]) ∧
      (s.request e).pc ≠ .finished := by
  cases a with
  | setlk x outcome =>
      cases performs
      have place := enabled.1
      simp only [Request.Transcript, place] at transcript
      exact ⟨.inl transcript, by rw [place]; decide⟩
  | firstTry x outcome =>
      cases performs
      have place := enabled.1
      simp only [Request.Transcript, place] at transcript
      exact ⟨.inl transcript.1, by rw [place]; decide⟩
  | setlkw x outcome =>
      cases performs
      have place := enabled.1
      simp only [Request.Transcript, place] at transcript
      obtain ⟨_, _, _, reply, answers, one⟩ := transcript
      obtain ⟨id, rfl⟩ := answers.pending_of_first first
      exact ⟨.inr ⟨id, one⟩, by rw [place]; decide⟩
  | _ => cases performs

/-- What a reply says about the request that was answered with it. -/
def Request.Agrees (request : Request) : Reply → Prop
  | .ok (.lockCommand (.done _)) => request.Succeeded
  | .error _ => ¬ request.Succeeded
  | .ok (.lockCommand (.pending _)) | .ok .unit | .ok (.register _) => True

theorem not_succeeded {request : Request} (blocking : task request.message = .setLockBlocking)
    (undecided : request.second = none) : ¬ request.Succeeded := by
  simp [Request.Succeeded, blocking, undecided]

section Agrees
variable {request : Request} (marks : request.Marks)
  (first : request.first = none ∨ request.first = some (.error Errno.AGAIN))
include marks

theorem Request.AnswersLast.agrees (blocking : task request.message = .setLockBlocking)
    {reply : Reply} (answers : request.AnswersLast reply) : request.Agrees reply := by
  rcases answers with ⟨errno, failed, rfl⟩ | ⟨_, outcome, second, rfl⟩
  · apply not_succeeded blocking
    by_contra decided
    obtain ⟨masked, unmasked, _⟩ := marks.second decided
    rcases failed with failed | failed
    · rw [masked] at failed
      cases failed
    · rw [unmasked] at failed
      cases failed
  · cases outcome with
    | ok done => exact .inr second
    | error errno => simp [Request.Agrees, Request.Succeeded, blocking, second]

include first

theorem Request.WorkerTranscript.agrees (blocking : task request.message = .setLockBlocking)
    (worker : request.WorkerTranscript) : ∀ reply ∈ request.replies, request.Agrees reply := by
  obtain ⟨_, last, answersLast, ⟨_, one⟩ | ⟨_, head, answers, two⟩⟩ := worker
  · rw [one]
    intro reply member
    cases List.mem_singleton.mp member
    exact answersLast.agrees marks blocking
  · obtain ⟨id, rfl⟩ := answers.pending_of_first first
    rw [two]
    intro reply member
    rcases List.mem_cons.mp member with rfl | member
    · trivial
    · cases List.mem_singleton.mp member
      exact answersLast.agrees marks blocking

/-- A lock command that is served on a worker. -/
theorem Request.Transcript.blocking_agrees (transcript : request.Transcript)
    (serves : request.pc.Serves (task request.message))
    (blocking : task request.message = .setLockBlocking) :
    (∀ reply ∈ request.replies, request.Agrees reply) ∧
      (request.pc = .finished → request.replies = [] → ¬ request.Succeeded) := by
  have nothing : request.replies = [] → ∀ reply ∈ request.replies, request.Agrees reply := by
    intro empty reply member
    rw [empty] at member
    cases member
  have pending : ∀ head, request.AnswersFirst head → request.replies = [head] →
      ∀ reply ∈ request.replies, request.Agrees reply := by
    intro head answers one reply member
    obtain ⟨id, rfl⟩ := answers.pending_of_first first
    rw [one] at member
    cases List.mem_singleton.mp member
    trivial
  cases place : request.pc with
  | mapGet | spawn | childStart =>
      simp only [Request.Transcript, place] at transcript
      exact ⟨nothing transcript, by simp⟩
  | reply | refused | blockSignals | firstTry | fetchInterrupt | insertInterrupt | replyFirst =>
      simp only [Request.Transcript, place] at transcript
      exact ⟨nothing transcript.1, by simp⟩
  | unblockSignal =>
      simp only [Request.Transcript, place] at transcript
      obtain ⟨_, _, head, answers, one⟩ := transcript
      exact ⟨pending head answers one, by simp⟩
  | setlkw =>
      simp only [Request.Transcript, place] at transcript
      obtain ⟨_, _, _, head, answers, one⟩ := transcript
      exact ⟨pending head answers one, by simp⟩
  | replyLast =>
      simp only [Request.Transcript, place] at transcript
      obtain ⟨_, _, ⟨_, empty⟩ | ⟨_, head, answers, one⟩⟩ := transcript
      · exact ⟨nothing empty, by simp⟩
      · exact ⟨pending head answers one, by simp⟩
  | endCall | dropClone | untrack | markExited =>
      simp only [Request.Transcript, place] at transcript
      exact ⟨transcript.agrees marks first blocking, by simp⟩
  | finished =>
      simp only [Request.Transcript, place] at transcript
      rcases transcript with ⟨⟨last, _, one⟩, other | missing⟩ | ⟨_, _, ⟨empty, spawned⟩ | worker⟩
      · exact (other blocking).elim
      · obtain ⟨_, ⟨errno, out⟩, all⟩ := marks.missing missing
        have undecided : ¬ request.Succeeded := by
          apply not_succeeded blocking
          by_contra decided
          obtain ⟨_, _, _, found, _⟩ := marks.second decided
          rw [missing] at found
          cases found
        refine ⟨?_, fun _ _ => undecided⟩
        intro reply member
        rw [all reply member, out]
        exact undecided
      · refine ⟨nothing empty, fun _ _ => not_succeeded blocking ?_⟩
        by_contra decided
        obtain ⟨_, _, tracked, _⟩ := marks.second decided
        rw [tracked] at spawned
        rcases spawned with failed | refused
        · cases failed
        · cases refused
      · refine ⟨worker.agrees marks first blocking, ?_⟩
        intro _ empty
        obtain ⟨_, last, _, ⟨_, one⟩ | ⟨_, head, _, two⟩⟩ := worker
        · rw [empty] at one
          cases one
        · rw [empty] at two
          cases two
  | _ =>
      rw [place, blocking] at serves
      simp [Pc.Serves] at serves

end Agrees

/-- The replies to a command that sets a lock say whether it was granted. -/
theorem replies_agree {s : State} (reached : machine.Reachable s) (alive : s.loop ≠ .ended)
    {e : RequestId} (running : (s.request e).pc ≠ .idle)
    (locks : task (s.request e).message = .setLock ∨ task (s.request e).message = .setLockBlocking)
    (first : (s.request e).first = none ∨ (s.request e).first = some (.error Errno.AGAIN)) :
    (∀ reply ∈ (s.request e).replies, (s.request e).Agrees reply) ∧
      ((s.request e).pc = .finished → (s.request e).replies = [] →
        ¬ (s.request e).Succeeded) := by
  have served := reachable_served reached
  have marks := reachable_marks reached e
  rcases locks with setLock | blocking
  · have once : task (s.request e).message ≠ .setLockBlocking := by
      rw [setLock]
      decide
    have undecided : (s.request e).second = none := by
      by_contra decided
      exact once (marks.second decided).2.2.2.2
    by_cases finished : (s.request e).pc = .finished
    · have answered := (served.answered e once finished).resolve_right alive
      refine ⟨?_, ?_⟩
      · rw [answered]
        intro reply member
        cases List.mem_singleton.mp member
        cases out : (s.request e).out with
        | error errno => simp [Request.Agrees, Request.Succeeded, out, undecided]
        | ok data =>
            cases data with
            | lockCommand data =>
                cases data with
                | done params => exact .inl ⟨setLock, .inr finished, params, out⟩
                | pending id => trivial
            | unit => trivial
            | register id => trivial
      · intro _ empty
        rw [answered] at empty
        cases empty
    · rw [served.silent e once finished]
      exact ⟨by simp, fun done => (finished done).elim⟩
  · have transcript := reachable_transcript reached e running (by rw [blocking]; trivial)
    exact transcript.blocking_agrees marks first (served.serves e running) blocking

end Ulockmgr.Owner
