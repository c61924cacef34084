import Ulockmgr.Owner.Endpoint
import Ulockmgr.System

/-!
# Who reads which replies

Every request has one reader: the call that sent it, or another client thread.  A step
of the system is a step of the owner, the receipt of a request, or a read from an endpoint
by its own reader; so an endpoint evolves as the owner alone makes it evolve until
its reader takes something off it.
-/

namespace Ulockmgr.System

open Owner (RequestId Request)

/-- The step reads from the endpoint `x`. -/
def Reads (s : State) (x : RequestId) : Action → Prop
  | .firstReply c | .wait c _ => (s.call c).endpoint = some x
  | .interruptReply c => (s.call c).pc = .awaitInterrupt x
  | .removeReply c => ∃ result, (s.call c).pc = .awaitRemove x result
  | .owner _ | .deliver | .send _ | .call _ _ _ | .callFails _ _ _ _ | .unblockFails _ _
  | .sendInterrupt _ | .sendRemove _ => False

/-- The request a step sends, and its reader. -/
def posts (s : State) : Action → Option (Sender × Message)
  | .send message => some (.other, message)
  | .call id action params => some (.lock s.calls, .lockCommand id action params)
  | .sendInterrupt c => some (.interrupt c, .interrupt (s.call c).interruptId)
  | .sendRemove c => some (.remove c, .removeInterrupt (s.call c).interruptId)
  | .owner _ | .deliver | .callFails _ _ _ _ | .firstReply _ | .wait _ _ | .unblockFails _ _
  | .interruptReply _ | .removeReply _ => none

/-- The call that takes a step. -/
def caller (s : State) : Action → Option CallId
  | .call _ _ _ | .callFails _ _ _ _ => some s.calls
  | .firstReply c | .wait c _ | .unblockFails c _ | .sendInterrupt c | .interruptReply c
  | .sendRemove c | .removeReply c => some c
  | .owner _ | .deliver | .send _ => none

theorem fetched_some {s : State} {kind : ReplyKind} {e : RequestId} {signal : Bool}
    {item : Option Fetched} (read : s.fetched kind e signal = some item) :
    ∃ rest, nextReply kind (s.owner.request e).stream signal = .returns item rest := by
  unfold State.fetched at read
  split at read
  · next rest returned =>
      cases read
      exact ⟨rest, returned⟩
  · cases read

/-- Whether a read waits does not depend on what it reads. -/
theorem fetch_enabled {s : State} {kind : ReplyKind} {e : RequestId} {signal : Bool}
    (read : (s.fetched kind e signal).isSome) : Owner.Enabled s.owner (.fetch e signal) := by
  obtain ⟨item, found⟩ := Option.isSome_iff_exists.mp read
  obtain ⟨rest, returned⟩ := fetched_some found
  simp only [Owner.Enabled]
  unfold nextReply at returned ⊢
  cases received : receiveRawMessage (s.owner.request e).stream signal with
  | blocks =>
      rw [received] at returned
      cases returned
  | panics => simp [Received.map]
  | returns result left => simp [Received.map]

/-- The owner does nothing, takes a step of its own, receives the request at the head of the
queue, or is read from. -/
theorem owner_cases {s : State} {a : Action} (enabled : Enabled s a) :
    (next s a).owner = s.owner ∨
      (∃ b, a = .owner b ∧ Internal b = true ∧ Owner.Enabled s.owner b ∧
        (next s a).owner = Owner.next s.owner b) ∨
      (∃ e message rest, a = .deliver ∧ s.inbox = (e, message) :: rest ∧
        (next s a).inbox = rest ∧ Owner.Enabled s.owner (.recv e message) ∧
          (next s a).owner = Owner.next s.owner (.recv e message)) ∨
      ∃ x signal, Reads s x a ∧ Owner.Enabled s.owner (.fetch x signal) ∧
        (next s a).owner = Owner.next s.owner (.fetch x signal) := by
  cases a with
  | owner b => exact .inr (.inl ⟨b, rfl, enabled.1, enabled.2, rfl⟩)
  | deliver =>
      obtain ⟨e, message, rest, queue, recv⟩ := enabled
      refine .inr (.inr (.inl ⟨e, message, rest, rfl, queue, ?_, recv, ?_⟩)) <;>
        simp [next, queue]
  | firstReply c =>
      obtain ⟨_, e, endpoint, read⟩ := enabled
      obtain ⟨item, found⟩ := Option.isSome_iff_exists.mp read
      refine .inr (.inr (.inr ⟨e, false, endpoint, fetch_enabled read, ?_⟩))
      simp [next, endpoint, found, State.fetch]
  | wait c signal =>
      obtain ⟨_, _, e, endpoint, read⟩ := enabled
      obtain ⟨item, found⟩ := Option.isSome_iff_exists.mp read
      refine .inr (.inr (.inr ⟨e, signal, endpoint, fetch_enabled read, ?_⟩))
      simp [next, endpoint, found, State.fetch]
  | interruptReply c =>
      obtain ⟨x, place, read⟩ := enabled
      obtain ⟨item, found⟩ := Option.isSome_iff_exists.mp read
      refine .inr (.inr (.inr ⟨x, false, place, fetch_enabled read, ?_⟩))
      simp [next, place, found, State.fetch]
  | removeReply c =>
      obtain ⟨x, result, place, read⟩ := enabled
      refine .inr (.inr (.inr ⟨x, false, ⟨result, place⟩, fetch_enabled read, ?_⟩))
      simp [next, place, State.fetch]
  | sendRemove c =>
      obtain ⟨result, place⟩ := enabled
      simp [next, place]
  | _ => exact .inl (by simp [next])

theorem owner_step {s : State} {a : Action} (enabled : Enabled s a) :
    (next s a).owner = s.owner ∨
      ∃ b, Owner.Enabled s.owner b ∧ (next s a).owner = Owner.next s.owner b := by
  rcases owner_cases enabled with same | ⟨_, _, _, step, moves⟩ | ⟨_, _, _, _, _, _, step, moves⟩ |
    ⟨_, _, _, step, moves⟩
  · exact .inl same
  · exact .inr ⟨_, step, moves⟩
  · exact .inr ⟨_, step, moves⟩
  · exact .inr ⟨_, step, moves⟩

theorem reachable_owner {Good : State → Action → Prop} {s : State}
    (reached : machine.ReachableVia Good s) : Owner.machine.Reachable s.owner := by
  apply reached.invariant
  · rintro _ rfl
    exact .initial rfl
  · intro state label before enabled _
    rcases owner_step enabled with same | ⟨b, step, moves⟩
    · exact same ▸ before
    · exact moves ▸ Owner.reachable_next before step

/-- An endpoint that is not read from evolves as the owner makes it evolve. -/
theorem request_evolves {s : State} {a : Action} (owner : Owner.machine.Reachable s.owner)
    (enabled : Enabled s a) {x : RequestId} (other : ¬ Reads s x a) :
    (s.owner.request x).Evolves ((next s a).owner.request x) := by
  have fresh := Owner.reachable_idle owner x
  rcases owner_cases enabled with same | ⟨b, _, internal, step, moves⟩ |
    ⟨e, m, _, _, _, _, step, moves⟩ | ⟨y, signal, reads, step, moves⟩
  · rw [same]
    exact .refl _
  · rw [moves]
    refine Owner.evolves_next step fresh ?_
    rintro signal rfl
    cases internal
  · rw [moves]
    exact Owner.evolves_next step fresh (by rintro signal ⟨⟩)
  · rw [moves]
    refine Owner.evolves_next step fresh ?_
    rintro signal same
    cases same
    exact other reads

/-! ## The queue -/

theorem posts_cases {s : State} {a : Action} (enabled : Enabled s a) :
    (∃ sender message, posts s a = some (sender, message) ∧ (next s a).owner = s.owner ∧
        (next s a).inbox = s.inbox ++ [(s.sent, message)] ∧ (next s a).sent = s.sent + 1 ∧
          ∀ x, (next s a).sender x = if x = s.sent then sender else s.sender x) ∨
      posts s a = none ∧ (next s a).sent = s.sent ∧ (∀ x, (next s a).sender x = s.sender x) ∧
        ((next s a).inbox = s.inbox ∧ a ≠ .deliver ∨
          ∃ e message, a = .deliver ∧ s.inbox = (e, message) :: (next s a).inbox ∧
            (next s a).owner = Owner.next s.owner (.recv e message)) := by
  cases a with
  | deliver =>
      obtain ⟨e, message, rest, queue, _⟩ := enabled
      right
      simp [posts, next, queue]
  | sendRemove c =>
      obtain ⟨result, place⟩ := enabled
      left
      simp [posts, next, place]
  | firstReply c =>
      right
      simp only [posts, next]
      (repeat' split) <;> simp [State.fetch]
  | wait c signal =>
      right
      simp only [posts, next]
      (repeat' split) <;> simp [State.fetch]
  | interruptReply c =>
      right
      simp only [posts, next]
      (repeat' split) <;> simp [State.fetch]
  | removeReply c =>
      right
      simp only [posts, next]
      (repeat' split) <;> simp [State.fetch]
  | _ => simp [posts, next, newCall, Call.message]

structure Queued (s : State) : Prop where
  bound : ∀ x message, (x, message) ∈ s.inbox → x < s.sent
  idle : ∀ x message, (x, message) ∈ s.inbox → (s.owner.request x).pc = .idle
  fresh : ∀ x, s.sent ≤ x → (s.owner.request x).pc = .idle
  nodup : (s.inbox.map Prod.fst).Nodup
  known : ∀ x, x < s.sent → (s.owner.request x).pc = .idle → ∃ message, (x, message) ∈ s.inbox

/-- A request leaves its first place only when the owner receives it. -/
theorem idle_cases {s : State} {a : Action} (enabled : Enabled s a) (x : RequestId) :
    ((next s a).owner.request x).pc = .idle ∧ (s.owner.request x).pc = .idle ∨
      ((next s a).owner.request x).pc ≠ .idle ∧ (s.owner.request x).pc ≠ .idle ∧
        ((next s a).owner.request x).message = (s.owner.request x).message ∨
      ((next s a).owner.request x).pc ≠ .idle ∧ (s.owner.request x).pc = .idle ∧
        a = .deliver ∧ s.inbox = (x, ((next s a).owner.request x).message) :: (next s a).inbox := by
  have internal : ∀ b, Owner.Enabled s.owner b → (∀ message, b ≠ .recv x message) →
      ((Owner.next s.owner b).request x).pc = .idle ∧ (s.owner.request x).pc = .idle ∨
        ((Owner.next s.owner b).request x).pc ≠ .idle ∧ (s.owner.request x).pc ≠ .idle ∧
          ((Owner.next s.owner b).request x).message = (s.owner.request x).message := by
    intro b step known
    by_cases idle : (s.owner.request x).pc = .idle
    · exact .inl ⟨Owner.idle_stays step known idle, idle⟩
    · exact .inr ⟨Owner.running_next step idle, idle, Owner.message_next step idle⟩
  rcases owner_cases enabled with same | ⟨b, _, own, step, moves⟩ |
    ⟨e, message, rest, rfl, queue, left, step, moves⟩ | ⟨y, signal, _, step, moves⟩
  · rw [same]
    by_cases idle : (s.owner.request x).pc = .idle
    · exact .inl ⟨idle, idle⟩
    · exact .inr (.inl ⟨idle, idle, rfl⟩)
  · rw [moves]
    rcases internal b step (by rintro message rfl; cases own) with idle | running
    · exact .inl idle
    · exact .inr (.inl running)
  · rw [moves, left]
    by_cases same : x = e
    · subst same
      right
      right
      refine ⟨Owner.recv_running _ _ _, step.2, rfl, ?_⟩
      simp [Owner.next, queue]
    · rcases internal _ step (by rintro message ⟨⟩; exact same rfl) with idle | running
      · exact .inl idle
      · exact .inr (.inl running)
  · rw [moves]
    rcases internal _ step (by rintro message ⟨⟩) with idle | running
    · exact .inl idle
    · exact .inr (.inl running)

/-- A new request goes behind all others. -/
theorem Queued.post {s t : State} {message : Message} (inv : Queued s) (same : t.owner = s.owner)
    (grown : t.inbox = s.inbox ++ [(s.sent, message)]) (sent : t.sent = s.sent + 1) : Queued t where
  bound x m queued := by
    rw [grown, List.mem_append, List.mem_singleton] at queued
    rw [sent]
    rcases queued with old | new
    · exact Nat.lt_succ_of_lt (inv.bound x m old)
    · cases new
      exact Nat.lt_succ_self _
  idle x m queued := by
    rw [grown, List.mem_append, List.mem_singleton] at queued
    rw [same]
    rcases queued with old | new
    · exact inv.idle x m old
    · cases new
      exact inv.fresh _ le_rfl
  fresh x above := by
    rw [sent] at above
    rw [same]
    exact inv.fresh x (Nat.le_of_succ_le above)
  nodup := by
    rw [grown, List.map_append, List.nodup_append]
    refine ⟨inv.nodup, List.nodup_singleton _, ?_⟩
    intro x old y new
    obtain ⟨⟨_, m⟩, queued, rfl⟩ := List.mem_map.mp old
    cases List.mem_singleton.mp new
    exact (inv.bound _ m queued).ne
  known x below waits := by
    rw [same] at waits
    rw [sent] at below
    rw [grown]
    rcases Nat.lt_succ_iff_lt_or_eq.mp below with old | rfl
    · obtain ⟨m, queued⟩ := inv.known x old waits
      exact ⟨m, List.mem_append_left _ queued⟩
    · exact ⟨message, by simp⟩

/-- Steps that leave the queue alone leave the requests in it alone. -/
theorem Queued.keep {s t : State} (inv : Queued s) (queue : t.inbox = s.inbox)
    (sent : t.sent = s.sent)
    (idle : ∀ x, (t.owner.request x).pc = .idle ↔ (s.owner.request x).pc = .idle) : Queued t where
  bound x m queued := by
    rw [queue] at queued
    rw [sent]
    exact inv.bound x m queued
  idle x m queued := by
    rw [queue] at queued
    exact (idle x).mpr (inv.idle x m queued)
  fresh x above := by
    rw [sent] at above
    exact (idle x).mpr (inv.fresh x above)
  nodup := by
    rw [queue]
    exact inv.nodup
  known x below waits := by
    rw [sent] at below
    rw [queue]
    exact inv.known x below ((idle x).mp waits)

/-- The head of the queue is received. -/
theorem Queued.deliver {s t : State} {e : RequestId} {message : Message} (inv : Queued s)
    (queue : s.inbox = (e, message) :: t.inbox) (sent : t.sent = s.sent)
    (received : (t.owner.request e).pc ≠ .idle)
    (idle : ∀ x, x ≠ e → ((t.owner.request x).pc = .idle ↔ (s.owner.request x).pc = .idle)) :
    Queued t := by
  have nodup := inv.nodup
  rw [queue, List.map_cons, List.nodup_cons] at nodup
  have behind : ∀ x m, (x, m) ∈ t.inbox → (x, m) ∈ s.inbox ∧ x ≠ e := by
    intro x m queued
    refine ⟨?_, ?_⟩
    · rw [queue]
      exact List.mem_cons_of_mem _ queued
    · rintro rfl
      exact nodup.1 (List.mem_map.mpr ⟨_, queued, rfl⟩)
  have below := inv.bound e message (by rw [queue]; exact List.mem_cons_self)
  constructor
  · intro x m queued
    rw [sent]
    exact inv.bound x m (behind x m queued).1
  · intro x m queued
    obtain ⟨old, other⟩ := behind x m queued
    exact (idle x other).mpr (inv.idle x m old)
  · intro x above
    rw [sent] at above
    have other : x ≠ e := by
      rintro rfl
      exact Nat.not_lt.mpr above below
    exact (idle x other).mpr (inv.fresh x above)
  · exact nodup.2
  · intro x small waits
    rw [sent] at small
    have other : x ≠ e := by
      rintro rfl
      exact received waits
    obtain ⟨m, queued⟩ := inv.known x small ((idle x other).mp waits)
    rw [queue] at queued
    rcases List.mem_cons.mp queued with head | later
    · cases head
      exact (other rfl).elim
    · exact ⟨m, later⟩

theorem queued_next {s : State} {a : Action} (inv : Queued s) (enabled : Enabled s a) :
    Queued (next s a) := by
  have idle := idle_cases enabled
  rcases posts_cases enabled with ⟨sender, message, _, same, grown, sent, _⟩ |
    ⟨_, sent, _, ⟨queue, other⟩ | ⟨e, message, rfl, queue, moves⟩⟩
  · exact inv.post same grown sent
  · refine inv.keep queue sent ?_
    intro x
    rcases idle x with ⟨after, before⟩ | ⟨after, before, _⟩ | ⟨_, _, delivers, _⟩
    · exact ⟨fun _ => before, fun _ => after⟩
    · exact ⟨fun waits => (after waits).elim, fun waits => (before waits).elim⟩
    · exact (other delivers).elim
  · refine inv.deliver queue sent (by rw [moves]; exact Owner.recv_running _ _ _) ?_
    intro x other
    rcases idle x with ⟨after, before⟩ | ⟨after, before, _⟩ | ⟨_, _, _, head⟩
    · exact ⟨fun _ => before, fun _ => after⟩
    · exact ⟨fun waits => (after waits).elim, fun waits => (before waits).elim⟩
    · rw [queue] at head
      cases (List.cons.inj head).1
      exact (other rfl).elim

theorem queued_initial : Queued initial := by
  constructor <;> simp [initial, Owner.initial, Request.idle]

/-! ## What a request carries -/

/-- The request `x` was sent with this message. -/
def Carries (s : State) (x : RequestId) (message : Message) : Prop :=
  (x, message) ∈ s.inbox ∨ (s.owner.request x).pc ≠ .idle ∧ (s.owner.request x).message = message

theorem Carries.bound {s : State} (inv : Queued s) {x : RequestId} {message : Message}
    (carries : Carries s x message) : x < s.sent := by
  rcases carries with queued | ⟨running, _⟩
  · exact inv.bound x message queued
  · by_contra above
    exact running (inv.fresh x (Nat.not_lt.mp above))

theorem Carries.next {s : State} {a : Action} (enabled : Enabled s a) {x : RequestId}
    {message : Message} (carries : Carries s x message) : Carries (next s a) x message := by
  rcases carries with queued | ⟨running, same⟩
  · rcases posts_cases enabled with ⟨_, _, _, _, grown, _, _⟩ |
      ⟨_, _, _, ⟨queue, _⟩ | ⟨e, m, _, queue, moves⟩⟩
    · left
      rw [grown]
      exact List.mem_append_left _ queued
    · left
      rw [queue]
      exact queued
    · rw [queue] at queued
      rcases List.mem_cons.mp queued with head | later
      · cases head
        right
        rw [moves]
        exact ⟨Owner.recv_running _ _ _, by simp [Owner.next]⟩
      · exact .inl later
  · rcases idle_cases enabled x with ⟨_, idle⟩ | ⟨after, _, kept⟩ | ⟨_, idle, _⟩
    · exact (running idle).elim
    · exact .inr ⟨after, kept.trans same⟩
    · exact (running idle).elim

/-- A message is carried from the moment it is sent. -/
theorem carries_cases {s : State} {a : Action} (enabled : Enabled s a) {x : RequestId}
    {message : Message} (carries : Carries (next s a) x message) :
    Carries s x message ∨ x = s.sent ∧ ∃ sender, posts s a = some (sender, message) := by
  rcases carries with queued | ⟨running, same⟩
  · rcases posts_cases enabled with ⟨sender, m, posted, _, grown, _, _⟩ |
      ⟨_, _, _, ⟨queue, _⟩ | ⟨e, m, _, queue, _⟩⟩
    · rw [grown, List.mem_append, List.mem_singleton] at queued
      rcases queued with old | new
      · exact .inl (.inl old)
      · cases new
        exact .inr ⟨rfl, sender, posted⟩
    · rw [queue] at queued
      exact .inl (.inl queued)
    · left
      left
      rw [queue]
      exact List.mem_cons_of_mem _ queued
  · left
    rcases idle_cases enabled x with ⟨idle, _⟩ | ⟨_, before, kept⟩ | ⟨_, _, _, head⟩
    · exact (running idle).elim
    · exact .inr ⟨before, kept.symm.trans same⟩
    · left
      rw [head, same]
      exact List.mem_cons_self

end Ulockmgr.System
