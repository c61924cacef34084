import Ulockmgr.Detached

/-!
# The completion callback

`done` is called once, by the closure or by the destructor of its `Invoker`, and has
returned before the guard of the thread is dropped.
-/

namespace Ulockmgr.Detached

open Tracker (Thread TrackerId GuardId)

/-! ## One closure -/

/-- What `done` has to be told: the error of `pre`, the result of the lock operation, or that
neither came to an end. -/
def Job.verdict (job : Job) : Result :=
  match job.preResult, job.operation with
  | some (.error error), _ => .error error
  | some (.ok ()), some result => result
  | _, _ => .error threadPanicked

def Job.Placed (job : Job) : Prop :=
  match job.phase with
  | .absent | .offered =>
      job.inner = true ∧ job.preCalled = false ∧ job.preResult = none ∧ job.operation = none
  | .pre => job.inner = true ∧ job.preCalled = true ∧ job.preResult = none ∧ job.operation = none
  | .operating =>
      job.inner = true ∧ job.preCalled = true ∧ job.preResult = some (.ok ()) ∧ job.operation = none
  | .invoking result => job.inner = true ∧ job.preCalled = true ∧ result = job.verdict
  | .dropping => job.inner = true → job.verdict = .error threadPanicked
  | .calling | .callingLast | .ended => job.inner = false

structure Job.Sound (job : Job) : Prop where
  placed : job.Placed
  silent : job.inner = true → job.done = []
  spoken : job.inner = false → job.done = [job.verdict]
  idle : job.preCalled = false → job.operationCalled = false ∧ job.preResult = none

theorem Job.sound_absent : Job.absent.Sound := by
  constructor <;> simp [Job.Placed, Job.absent]

theorem Job.sound_offer (params : LockParams) (tr : TrackerId) (host : Thread) :
    (Job.offer params tr host).Sound := by
  constructor <;> simp [Job.Placed, Job.offer, Job.absent]

theorem Job.Sound.call {job : Job} (sound : job.Sound) (offered : job.phase = .offered) :
    job.call.Sound := by
  obtain ⟨placed, silent, spoken, idle⟩ := sound
  simp only [Job.Placed, offered] at placed
  constructor <;> simp_all [Job.Placed, Job.call, Job.verdict]

theorem Job.Sound.discard {job : Job} (sound : job.Sound) (offered : job.phase = .offered) :
    job.discard.Sound := by
  obtain ⟨placed, silent, spoken, idle⟩ := sound
  simp only [Job.Placed, offered] at placed
  constructor <;> simp_all [Job.Placed, Job.discard, Job.verdict]

theorem Job.Sound.next {job : Job} (sound : job.Sound) {event : Event}
    (enabled : job.Enabled event) : (job.next event).Sound := by
  obtain ⟨placed, silent, spoken, idle⟩ := sound
  cases event with
  | preReturns result =>
      have place : job.phase = .pre := enabled
      simp only [Job.Placed, place] at placed
      cases result with
      | ok value => constructor <;> simp_all [Job.Placed, Job.next, Job.verdict]
      | error error => constructor <;> simp_all [Job.Placed, Job.next, Job.verdict]
  | prePanics =>
      have place : job.phase = .pre := enabled
      simp only [Job.Placed, place] at placed
      constructor <;> simp_all [Job.Placed, Job.next, Job.verdict]
  | operationReturns result =>
      have place : job.phase = .operating := enabled
      simp only [Job.Placed, place] at placed
      constructor <;> simp_all [Job.Placed, Job.next, Job.verdict]
  | operationPanics =>
      have place : job.phase = .operating := enabled
      simp only [Job.Placed, place] at placed
      constructor <;> simp_all [Job.Placed, Job.next, Job.verdict]
  | invoke =>
      obtain ⟨result, place⟩ := enabled
      simp only [Job.Placed, place] at placed
      constructor <;> simp_all [Job.Placed, Job.next, Job.invoke, Job.verdict]
  | doneReturns =>
      have called : job.inner = false := by
        rcases enabled with place | place <;> simpa only [Job.Placed, place] using placed
      rcases enabled with place | place <;> constructor <;>
        simp_all [Job.Placed, Job.next, Job.afterDone, Job.verdict]
  | donePanics =>
      have called : job.inner = false := by
        rcases enabled with place | place <;> simpa only [Job.Placed, place] using placed
      rcases enabled with place | place <;> constructor <;>
        simp_all [Job.Placed, Job.next, Job.afterDone, Job.verdict]
  | dropInvoker =>
      have place : job.phase = .dropping := enabled
      simp only [Job.Placed, place] at placed
      cases armed : job.inner with
      | true => constructor <;> simp_all [Job.Placed, Job.next, Job.invoke, Job.verdict]
      | false => constructor <;> simp_all [Job.Placed, Job.next, Job.invoke, Job.verdict]

/-- An event changes neither the thread of a closure nor how it came to it. -/
theorem Job.next_host (job : Job) (event : Event) :
    (job.next event).host = job.host ∧ (job.next event).failed = job.failed ∧
      (job.next event).preCalled = job.preCalled := by
  cases event with
  | preReturns result => cases result <;> simp [Job.next]
  | invoke =>
      simp only [Job.next]
      split
      · simp only [Job.invoke]
        split <;> simp
      · simp
  | dropInvoker =>
      simp only [Job.next, Job.invoke]
      split <;> simp
  | prePanics | operationReturns result | operationPanics | doneReturns | donePanics =>
      simp [Job.next]

theorem Job.next_phase {job : Job} {event : Event} (enabled : job.Enabled event) :
    job.phase ≠ .offered ∧ job.phase ≠ .ended ∧ (job.next event).phase ≠ .offered := by
  cases event with
  | preReturns result =>
      have place : job.phase = .pre := enabled
      cases result <;> simp [Job.next, place]
  | prePanics =>
      have place : job.phase = .pre := enabled
      simp [Job.next, place]
  | operationReturns result =>
      have place : job.phase = .operating := enabled
      simp [Job.next, place]
  | operationPanics =>
      have place : job.phase = .operating := enabled
      simp [Job.next, place]
  | invoke =>
      obtain ⟨result, place⟩ := enabled
      simp only [Job.next, place, Job.invoke]
      split <;> simp
  | doneReturns => rcases enabled with place | place <;> simp [Job.next, Job.afterDone, place]
  | donePanics => rcases enabled with place | place <;> simp [Job.next, Job.afterDone, place]
  | dropInvoker =>
      have place : job.phase = .dropping := enabled
      simp only [Job.next, place, Job.invoke]
      split <;> simp

/-! ## All closures -/

/-- What the tracker knows of the closure of a thread. -/
def ClosureAt (task : Tracker.Task) (job : Job) : Prop :=
  match task.closure with
  | .none => False
  | .pending => job.phase = .offered ∧ task.report = none
  | .running => job.preCalled = true ∧ job.phase ≠ .offered ∧ task.report = some true
  | .finished => job.phase = .ended ∧ task.report = some true
  | .discarded => job.preCalled = false ∧ job.phase ≠ .offered ∧ task.report = some false

structure Attached (s : State) : Prop where
  tracker : Tracker.machine.Reachable s.tracker
  sound : ∀ j, (s.job j).Sound
  unused : ∀ j, s.jobs ≤ j → s.job j = Job.absent
  failed : ∀ j, (s.job j).failed = true → (s.job j).preCalled = false
  hosted : ∀ t j, s.jobAt t = some j →
    j < s.jobs ∧ (s.job j).host = t ∧ (s.job j).failed = false
  born : ∀ t j, s.jobAt t = some j → (s.tracker.thread t).pc ≠ .unborn
  starts : ∀ t j, s.jobAt t = some j → (s.tracker.thread t).pc = .childStart →
    (s.tracker.thread t).closure = .pending
  closure : ∀ t j, s.jobAt t = some j → ClosureAt (s.tracker.thread t) (s.job j)

theorem attached_initial : Attached initial := by
  refine ⟨.initial rfl, ?_, ?_, ?_, ?_, ?_, ?_, ?_⟩
  · intro j
    exact Job.sound_absent
  all_goals simp [initial, Job.absent]

/-- The closure of a thread meets the answer of the tracker, and it ends; nothing else happens
to it. -/
theorem task_cases {s : Tracker.State} {a : Tracker.Action} (enabled : Tracker.Enabled s a)
    {t : Thread} (born : (s.thread t).pc ≠ .unborn) :
    ((Tracker.next s a).thread t).pc ≠ .unborn ∧
      (((Tracker.next s a).thread t).closure = (s.thread t).closure ∧
          ((Tracker.next s a).thread t).report = (s.thread t).report ∧
          (((Tracker.next s a).thread t).pc = .childStart → (s.thread t).pc = .childStart) ∨
        (∃ g, a = .childTrack t g) ∨ a = .closureEnds t) := by
  by_cases own : (∃ g, a = .childTrack t g) ∨ a = .closureEnds t
  · refine ⟨?_, .inr own⟩
    rcases own with ⟨g, rfl⟩ | rfl
    · simp only [Tracker.next]
      split <;> simp
    · simp [Tracker.next]
  · rw [not_or, not_exists] at own
    obtain ⟨tracks, ends⟩ := own
    cases a with
    | childTrack u g =>
        have other : t ≠ u := by
          rintro rfl
          exact tracks g rfl
        simp only [Tracker.next]
        split <;> simp [other, born]
    | closureEnds u =>
        have other : t ≠ u := by
          rintro rfl
          exact ends rfl
        simp [Tracker.next, other, born]
    | _ =>
        clear tracks ends
        simp only [Tracker.Enabled] at enabled
        simp only [Tracker.next, Tracker.handleCheck, Tracker.trackerCheck]
        (try split_ifs) <;> grind [Tracker.Task.unborn]

section Step
variable {s : State} (inv : Attached s)
include inv

theorem Attached.tracker_next {a : Tracker.Action} (enabled : Tracker.Enabled s.tracker a) :
    Tracker.machine.Reachable (Tracker.next s.tracker a) :=
  .step inv.tracker enabled trivial

/-- Two threads have different closures. -/
theorem Attached.alone {t u : Thread} {j : JobId} (at_ : s.jobAt t = some j)
    (other : s.jobAt u = some j) : t = u := by
  obtain ⟨_, host, _⟩ := inv.hosted t j at_
  obtain ⟨_, host', _⟩ := inv.hosted u j other
  exact host.symm.trans host'

/-- A step of the tracker that leaves the closures alone. -/
theorem Attached.other {a : Tracker.Action} (enabled : Tracker.Enabled s.tracker a)
    (tracks : ∀ t g, a = .childTrack t g → s.jobAt t = none) (behind : s.Behind a) :
    Attached { s with tracker := Tracker.next s.tracker a } where
  tracker := inv.tracker_next enabled
  sound := inv.sound
  unused := inv.unused
  failed := inv.failed
  hosted := inv.hosted
  born t j at_ := (task_cases enabled (inv.born t j at_)).1
  starts t j at_ place := by
    rcases (task_cases enabled (inv.born t j at_)).2 with ⟨same, _, before⟩ | ⟨g, rfl⟩ | rfl
    · exact same.trans (inv.starts t j at_ (before place))
    · cases (tracks t g rfl).symm.trans at_
    · simp [Tracker.next] at place
  closure t j at_ := by
    have old := inv.closure t j at_
    rcases (task_cases enabled (inv.born t j at_)).2 with ⟨same, report, _⟩ | ⟨g, rfl⟩ | rfl
    · simp only [ClosureAt, same, report] at old ⊢
      exact old
    · cases (tracks t g rfl).symm.trans at_
    · have runs : (s.tracker.thread t).closure = .running := enabled.2
      have known : s.jobAt t = some j := at_
      have ended : (s.job j).phase = .ended := by
        simpa [State.Behind, State.Ended, known] using behind
      simp only [ClosureAt, runs] at old
      simp [ClosureAt, Tracker.next, ended, old.2.2]

/-- The closure of a thread gets its own answer. -/
theorem Attached.setJob {t : Thread} {j : JobId} {job : Job} {tracker : Tracker.State}
    (at_ : s.jobAt t = some j) (reached : Tracker.machine.Reachable tracker) (sound : job.Sound)
    (kept : job.host = (s.job j).host ∧ job.failed = (s.job j).failed)
    (own : (tracker.thread t).pc ≠ .unborn ∧ (tracker.thread t).pc ≠ .childStart ∧
      ClosureAt (tracker.thread t) job)
    (others : ∀ u, u ≠ t → tracker.thread u = s.tracker.thread u) :
    Attached { s.setJob j job with tracker := tracker } := by
  have same : ∀ u x, u ≠ t → s.jobAt u = some x → x ≠ j := by
    rintro u x other there rfl
    exact other (inv.alone there at_)
  obtain ⟨bound, host, spawned⟩ := inv.hosted t j at_
  refine ⟨reached, ?_, ?_, ?_, ?_, ?_, ?_, ?_⟩
  · intro x
    by_cases here : x = j
    · subst here
      simpa using sound
    · simpa [here] using inv.sound x
  · intro x above
    have here : x ≠ j := by
      rintro rfl
      exact Nat.not_lt.mpr above bound
    simpa [here] using inv.unused x above
  · intro x failed
    by_cases here : x = j
    · subst here
      simp [kept, spawned] at failed
    · simp only [State.setJob_job, if_neg here] at failed ⊢
      exact inv.failed x failed
  · intro u x there
    have old := inv.hosted u x there
    by_cases here : x = j
    · subst here
      simpa [kept] using old
    · simpa [here] using old
  · intro u x there
    by_cases here : u = t
    · subst here
      exact own.1
    · rw [others u here]
      exact inv.born u x there
  · intro u x there place
    by_cases here : u = t
    · subst here
      exact (own.2.1 place).elim
    · rw [others u here] at place ⊢
      exact inv.starts u x there place
  · intro u x there
    by_cases here : u = t
    · subst here
      have known : s.jobAt u = some x := there
      rw [at_] at known
      cases known
      simpa using own.2.2
    · have other := same u x here there
      rw [others u here]
      simpa [other] using inv.closure u x there

/-- The new thread reports whether it may run its closure. -/
theorem Attached.report {t : Thread} {g : GuardId}
    (enabled : Tracker.Enabled s.tracker (.childTrack t g)) :
    Attached { s.report t with tracker := Tracker.next s.tracker (.childTrack t g) } := by
  have reached := inv.tracker_next enabled
  cases found : s.jobAt t with
  | none =>
      have quiet : s.report t = s := by simp [State.report, found]
      rw [quiet]
      refine inv.other enabled ?_ trivial
      intro u h same
      cases same
      exact found
  | some j =>
      have place : (s.tracker.thread t).pc = .childStart := enabled.1
      have pending := inv.starts t j found place
      have old := inv.closure t j found
      simp only [ClosureAt, pending] at old
      have others : ∀ u, u ≠ t → (Tracker.next s.tracker (.childTrack t g)).thread u =
          s.tracker.thread u := by
        intro u other
        simp only [Tracker.next]
        split <;> simp [other]
      cases may : (s.tracker.tracker (s.tracker.thread t).spawner).canSpawn with
      | true =>
          have calls : s.report t = s.setJob j (s.job j).call := by
            simp [State.report, found, may]
          rw [calls]
          refine inv.setJob found reached ((inv.sound j).call old.1) ⟨rfl, rfl⟩ ?_ others
          simp [Tracker.next, may, ClosureAt, Job.call]
      | false =>
          have drops : s.report t = s.setJob j (s.job j).discard := by
            simp [State.report, found, may]
          rw [drops]
          have idle := (inv.sound j).placed
          simp only [Job.Placed, old.1] at idle
          refine inv.setJob found reached ((inv.sound j).discard old.1) ⟨rfl, rfl⟩ ?_ others
          simp [Tracker.next, may, ClosureAt, Job.discard, idle.2.1]

theorem Attached.detach {t : Thread} {params : LockParams} {tr : TrackerId} {child : Thread}
    {p : Tracker.Pthread} (enabled : Tracker.Enabled s.tracker (.spawn t tr child p)) :
    Attached (Detached.next s (.detach t params tr child p)) := by
  have apart : child ≠ t := by
    rintro rfl
    have running := enabled.1
    rw [enabled.2.1] at running
    cases running
  have starts : (Tracker.next s.tracker (.spawn t tr child p)).thread child =
      { Tracker.Task.unborn with
        pc := .childStart
        pthread := p
        spawner := tr
        spawnedAfterStop := (s.tracker.tracker tr).stopReturned
        closure := .pending } := by
    simp [Tracker.next, apart]
  have fresh : ∀ u x, s.jobAt u = some x → x ≠ s.jobs := by
    intro u x there
    exact Nat.ne_of_lt (inv.hosted u x there).1
  have steps := inv.other enabled (by rintro u g ⟨⟩) trivial
  refine ⟨inv.tracker_next enabled, ?_, ?_, ?_, ?_, ?_, ?_, ?_⟩
  · intro x
    simp only [Detached.next, State.setJob_job]
    split
    · exact Job.sound_offer params tr child
    · exact inv.sound x
  · intro x above
    have later : x ≠ s.jobs := Nat.ne_of_gt above
    simpa [Detached.next, later] using inv.unused x (Nat.le_of_succ_le above)
  · intro x
    simp only [Detached.next, State.setJob_job]
    split
    · intro failed
      cases failed
    · exact inv.failed x
  · intro u x there
    simp only [Detached.next] at there ⊢
    split at there
    · next own =>
        cases there
        simp [Job.offer, Job.absent, own]
    · have old := inv.hosted u x there
      refine ⟨Nat.lt_succ_of_lt old.1, ?_⟩
      simpa [fresh u x there] using old.2
  · intro u x there
    simp only [Detached.next] at there ⊢
    split at there
    · next own =>
        rw [own, starts]
        simp
    · exact steps.born u x there
  · intro u x there place
    simp only [Detached.next] at there place ⊢
    split at there
    · next own => rw [own, starts]
    · exact steps.starts u x there place
  · intro u x there
    simp only [Detached.next] at there ⊢
    split at there
    · next own =>
        cases there
        rw [own, starts]
        simp [ClosureAt, Job.offer, Tracker.Task.unborn]
    · simpa [fresh u x there] using steps.closure u x there

theorem Attached.detachFails {t : Thread} {params : LockParams} {tr : TrackerId} :
    Attached (Detached.next s (.detachFails t params tr)) := by
  have fresh : ∀ u x, s.jobAt u = some x → x ≠ s.jobs := by
    intro u x there
    exact Nat.ne_of_lt (inv.hosted u x there).1
  refine ⟨inv.tracker, ?_, ?_, ?_, ?_, inv.born, inv.starts, ?_⟩
  · intro x
    simp only [Detached.next, State.setJob_job]
    split
    · have sound := (Job.sound_offer params tr t).discard rfl
      exact ⟨sound.placed, sound.silent, sound.spoken, sound.idle⟩
    · exact inv.sound x
  · intro x above
    have later : x ≠ s.jobs := Nat.ne_of_gt above
    simpa [Detached.next, later] using inv.unused x (Nat.le_of_succ_le above)
  · intro x
    simp only [Detached.next, State.setJob_job]
    split
    · intro _
      rfl
    · exact inv.failed x
  · intro u x there
    have old := inv.hosted u x there
    refine ⟨Nat.lt_succ_of_lt old.1, ?_⟩
    simpa [Detached.next, fresh u x there] using old.2
  · intro u x there
    simpa [Detached.next, fresh u x there] using inv.closure u x there

theorem Attached.detachReturns {j : JobId}
    (enabled : Tracker.Enabled s.tracker (.spawnFails (s.job j).host (s.job j).tracker)) :
    Attached (Detached.next s (.detachReturns j)) :=
  inv.other enabled (by rintro u g ⟨⟩) trivial

/-- A closure that takes a step is not on its way, nor gone. -/
theorem Attached.closure_event {t : Thread} {j : JobId} {event : Event} (at_ : s.jobAt t = some j)
    (enabled : (s.job j).Enabled event) :
    ClosureAt (s.tracker.thread t) ((s.job j).next event) := by
  have old := inv.closure t j at_
  obtain ⟨called, running, later⟩ := Job.next_phase enabled
  have same := (Job.next_host (s.job j) event).2.2
  cases closure : (s.tracker.thread t).closure with
  | none => simp only [ClosureAt, closure] at old
  | pending =>
      simp only [ClosureAt, closure] at old
      exact (called old.1).elim
  | running =>
      simp only [ClosureAt, closure] at old ⊢
      exact ⟨same.trans old.1, later, old.2.2⟩
  | finished =>
      simp only [ClosureAt, closure] at old
      exact (running old.1).elim
  | discarded =>
      simp only [ClosureAt, closure] at old ⊢
      exact ⟨same.trans old.1, later, old.2.2⟩

theorem Attached.event {j : JobId} {event : Event} (enabled : (s.job j).Enabled event) :
    Attached (Detached.next s (.job j event)) := by
  obtain ⟨host, failed, preCalled⟩ := Job.next_host (s.job j) event
  refine ⟨inv.tracker, ?_, ?_, ?_, ?_, inv.born, inv.starts, ?_⟩
  · intro x
    simp only [Detached.next, State.setJob_job]
    split
    · next own => exact (inv.sound j).next enabled
    · exact inv.sound x
  · intro x above
    have other : x ≠ j := by
      rintro rfl
      rw [inv.unused x above] at enabled
      cases event with
      | preReturns _ | prePanics | operationReturns _ | operationPanics | dropInvoker => cases enabled
      | invoke =>
          obtain ⟨_, place⟩ := enabled
          cases place
      | doneReturns | donePanics => rcases enabled with place | place <;> cases place
    simpa [Detached.next, other] using inv.unused x above
  · intro x
    simp only [Detached.next, State.setJob_job]
    split
    · rw [failed, preCalled]
      exact inv.failed j
    · exact inv.failed x
  · intro u x there
    have old := inv.hosted u x there
    simp only [Detached.next, State.setJob_job]
    split
    · next own =>
        subst own
        rw [host, failed]
        exact old
    · exact old
  · intro u x there
    simp only [Detached.next, State.setJob_job]
    split
    · next own =>
        subst own
        exact inv.closure_event there enabled
    · exact inv.closure u x there

end Step

theorem attached_next {s : State} {a : Action} (inv : Attached s) (enabled : Enabled s a) :
    Attached (next s a) := by
  cases a with
  | tracker a =>
      obtain ⟨_, step, behind⟩ := enabled
      cases a with
      | childTrack t g => exact inv.report step
      | _ => exact inv.other step (by rintro t g ⟨⟩) behind
  | detach t params tr child p => exact inv.detach enabled.2
  | detachFails t params tr => exact inv.detachFails
  | detachReturns j => exact inv.detachReturns enabled.2.2
  | job j event => exact inv.event enabled.2.2

theorem reachable_attached {s : State} (reached : machine.Reachable s) : Attached s := by
  apply reached.invariant
  · rintro _ rfl
    exact attached_initial
  · intro state label inv enabled
    exact attached_next inv enabled

/-! ## The callback -/

/-- `done` is called at most once and has been called when the closure is gone, with the
error of `pre`, the result of the operation, or the error that neither came to an end. -/
theorem done_called_once {s : State} (reached : machine.Reachable s) (j : JobId) :
    ((s.job j).done = [] ∨ (s.job j).done = [(s.job j).verdict]) ∧
      ((s.job j).phase = .ended → (s.job j).done = [(s.job j).verdict]) := by
  have sound := (reachable_attached reached).sound j
  refine ⟨?_, ?_⟩
  · cases armed : (s.job j).inner with
    | true => exact .inl (sound.silent armed)
    | false => exact .inr (sound.spoken armed)
  · intro ended
    have placed := sound.placed
    simp only [Job.Placed, ended] at placed
    exact sound.spoken placed

/-- A detached call whose lock operation succeeds. -/
def detachedRun : List Action :=
  [.tracker (.createThread 0 7), .detach 0 ⟨.write, .start, 0, 10, 0⟩ 0 1 8,
    .tracker (.childTrack 1 0), .tracker (.spawnReturn 0), .job 0 (.preReturns (.ok ())),
    .job 0 (.operationReturns (.ok ⟨.write, .start, 0, 10, 0⟩)), .job 0 .invoke,
    .job 0 .doneReturns, .job 0 .dropInvoker, .tracker (.closureEnds 1), .tracker (.untrack 1),
    .tracker (.markExited 1)]

theorem detached_done_called :
    ∃ s, machine.Reachable s ∧ (s.job 0).phase = .ended ∧
      (s.job 0).done = [.ok ⟨.write, .start, 0, 10, 0⟩] := by
  obtain ⟨s, reached, ended, verdict⟩ : ∃ s, machine.Reachable s ∧
      ((s.job 0).phase = .ended ∧ (s.job 0).verdict = .ok ⟨.write, .start, 0, 10, 0⟩) :=
    Transition.Machine.exists_reachable_of_exec detachedRun rfl (by decide +kernel)
  refine ⟨s, reached, ended, ?_⟩
  rw [(done_called_once reached 0).2 ended, verdict]

/-- The guard that the thread of a closure drops behind it. -/
abbrev State.guardAt (s : State) (t : Thread) : Tracker.Guard :=
  s.tracker.guard (s.tracker.thread t).mainGuard

theorem ended_of_exited {s : State} (inv : Attached s) {t : Thread} {j : JobId}
    (at_ : s.jobAt t = some j) (tracked : (s.tracker.thread t).report = some true)
    (exited : (s.guardAt t).phase = .exited) : (s.job j).phase = .ended := by
  have closure := inv.closure t j at_
  cases place : (s.tracker.thread t).closure with
  | none => simp only [ClosureAt, place] at closure
  | pending =>
      simp only [ClosureAt, place, tracked] at closure
      cases closure.2
  | running =>
      have owned := Tracker.reachable_owned inv.tracker
      have present := (owned.owner t _ (owned.main t place).1).2
      rcases present with live | untracked
      · cases live.symm.trans exited
      · cases untracked.symm.trans exited
  | finished =>
      simp only [ClosureAt, place] at closure
      exact closure.1
  | discarded =>
      simp only [ClosureAt, place, tracked] at closure
      cases closure.2.2

/-- The callback has returned before the handle of the call reports the exit; so it has when
`InterruptibleHandle::stop` returns. -/
theorem done_before_exit {s : State} (reached : machine.Reachable s) {t : Thread} {j : JobId}
    (at_ : s.jobAt t = some j) (tracked : (s.tracker.thread t).report = some true) :
    ((s.guardAt t).phase = .exited →
      (s.job j).phase = .ended ∧ (s.job j).done = [(s.job j).verdict]) ∧
    (∀ a, Tracker.HandleStopReturns s.tracker a (s.tracker.thread t).mainGuard →
      (s.job j).phase = .ended ∧ (s.job j).done = [(s.job j).verdict]) := by
  have inv := reachable_attached reached
  have behind : (s.guardAt t).phase = .exited →
      (s.job j).phase = .ended ∧ (s.job j).done = [(s.job j).verdict] := by
    intro exited
    have ended := ended_of_exited inv at_ tracked exited
    have placed := (inv.sound j).placed
    simp only [Job.Placed, ended] at placed
    exact ⟨ended, (inv.sound j).spoken placed⟩
  refine ⟨behind, ?_⟩
  intro a returns
  exact behind (Tracker.exited_of_handleStopReturns returns)

theorem detached_done_before_exit :
    ∃ s, machine.Reachable s ∧ (s.guardAt 1).phase = .exited ∧
      (s.job 0).done = [(s.job 0).verdict] := by
  obtain ⟨s, reached, at_, tracked, exited⟩ : ∃ s, machine.Reachable s ∧
      (s.jobAt 1 = some 0 ∧ (s.tracker.thread 1).report = some true ∧
        (s.guardAt 1).phase = .exited) :=
    Transition.Machine.exists_reachable_of_exec detachedRun rfl (by decide +kernel)
  exact ⟨s, reached, exited, ((done_before_exit reached at_ tracked).1 exited).2⟩

/-- A call whose thread was refused or not created runs neither `pre` nor the lock operation,
and `done` is told so. -/
theorem refused_runs_nothing {s : State} (reached : machine.Reachable s) {j : JobId}
    (refused : (s.job j).failed = true ∨
      ∃ t, s.jobAt t = some j ∧ (s.tracker.thread t).report = some false) :
    (s.job j).preCalled = false ∧ (s.job j).operationCalled = false ∧
      ∀ result ∈ (s.job j).done, result = .error threadPanicked := by
  have inv := reachable_attached reached
  have sound := inv.sound j
  have idle : (s.job j).preCalled = false := by
    rcases refused with failed | ⟨t, at_, report⟩
    · exact inv.failed j failed
    · have closure := inv.closure t j at_
      cases place : (s.tracker.thread t).closure <;>
        simp only [ClosureAt, place, report] at closure
      · cases closure.2
      · cases closure.2.2
      · cases closure.2
      · exact closure.1
  obtain ⟨notOperated, noResult⟩ := sound.idle idle
  refine ⟨idle, notOperated, ?_⟩
  intro result called
  have verdict : (s.job j).verdict = .error threadPanicked := by simp [Job.verdict, noResult]
  cases armed : (s.job j).inner with
  | true =>
      rw [sound.silent armed] at called
      cases called
  | false =>
      rw [sound.spoken armed, verdict] at called
      exact List.mem_singleton.mp called

/-- The tracker was stopped before the call. -/
def refusedRun : List Action :=
  [.tracker (.createThread 0 7), .tracker (.trackerStop 0 0), .tracker (.trackerLock 0),
    .tracker (.trackerCheck 0), .detach 0 ⟨.write, .start, 0, 10, 0⟩ 0 1 8,
    .tracker (.childTrack 1 0), .job 0 .dropInvoker]

theorem refused_call_runs_nothing :
    ∃ s, machine.Reachable s ∧ (s.job 0).done.length = 1 ∧ (s.job 0).preCalled = false ∧
      ∀ result ∈ (s.job 0).done, result = .error threadPanicked := by
  obtain ⟨s, reached, at_, report, called⟩ : ∃ s, machine.Reachable s ∧
      (s.jobAt 1 = some 0 ∧ (s.tracker.thread 1).report = some false ∧
        (s.job 0).done.length = 1) :=
    Transition.Machine.exists_reachable_of_exec refusedRun rfl (by decide +kernel)
  obtain ⟨idle, _, told⟩ := refused_runs_nothing reached (.inr ⟨1, at_, report⟩)
  exact ⟨s, reached, called, idle, told⟩

end Ulockmgr.Detached
