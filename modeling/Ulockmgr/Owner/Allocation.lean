import Ulockmgr.Library.Allocator
import Ulockmgr.Owner.Invariant

/-!
# The IDs of descriptors and interrupts

`handle_fd_register` and `handle_interrupt_add` take the key of their entry from a counter
that wraps, one attempt after the other, and both tables behave like the general one,
from every state and in every interleaving of the requests.
-/

namespace Ulockmgr.Owner

open Allocation (Event)

/-- The tables whose keys come from a counter. -/
inductive Table where
  | interrupts
  | descriptors
  deriving DecidableEq, Repr

namespace Table

def counter : Table → State → UInt64
  | .interrupts, s => s.interruptNextId
  | .descriptors, s => s.nextId

/-- The worker of a handle, or the request an `FdData` came with. -/
def entries : Table → State → UInt64 → Option RequestId
  | .interrupts, s => s.interrupts
  | .descriptors, s => s.descriptors

/-- `fetch_add` on the counter. -/
def fetch : Table → RequestId → Action
  | .interrupts => .fetchInterrupt
  | .descriptors => .fetchId

/-- `entry(id)`, with the insertion if it is vacant. -/
def insert : Table → RequestId → Action
  | .interrupts => .insertInterrupt
  | .descriptors => .insertId

def fetching : Table → Pc
  | .interrupts => .fetchInterrupt
  | .descriptors => .fetchId

def inserting : Table → Pc
  | .interrupts => .insertInterrupt
  | .descriptors => .insertId

/-- The ID is returned and goes into the next reply. -/
def Returned : Table → Request → UInt64 → Prop
  | .interrupts, request, id =>
      request.pc = .replyFirst ∧ request.out = .ok (.lockCommand (.pending id))
  | .descriptors, request, id => request.pc = .reply ∧ request.out = .ok (.register id)

/-- `handle_interrupt_remove` or `handle_fd_unregister` removes the entry. -/
def Removes : Table → State → Action → UInt64 → Prop
  | .interrupts, s, .removeInterrupt e, id => (s.request e).message.id = id
  | .descriptors, s, .mapRemove e, id => (s.request e).message.id = id
  | _, _, _, _ => False

/-- The step inserts the entry of `e` under the ID. -/
def Allocates (table : Table) (s : State) (a : Action) (e : RequestId) (id : UInt64) : Prop :=
  a = table.insert e ∧ (s.request e).id = id ∧ table.entries s id = none

/-! ## The general table -/

/-- The ID a request is about to try. -/
def candidate (table : Table) (request : Request) : Option UInt64 :=
  if request.pc = table.inserting then some request.id else none

def view (table : Table) (s : State) : Allocation.State RequestId RequestId where
  counter := table.counter s
  candidate := fun e => table.candidate (s.request e)
  entries := table.entries s

def event (table : Table) (s : State) (a : Action) : Event RequestId RequestId :=
  match table, a with
  | .interrupts, .fetchInterrupt e => .fetch e
  | .interrupts, .insertInterrupt e => .insert e e
  | .interrupts, .removeInterrupt e => .remove (s.request e).message.id
  | .descriptors, .fetchId e => .fetch e
  | .descriptors, .insertId e => .insert e e
  | .descriptors, .mapRemove e => .remove (s.request e).message.id
  | _, _ => .other

variable (table : Table) {s : State} {a : Action}

theorem event_fetch {e : RequestId} (fetches : table.event s a = .fetch e) :
    a = table.fetch e := by
  cases table <;> cases a <;> simp_all [event, fetch]

theorem event_insert {e value : RequestId} (inserts : table.event s a = .insert e value) :
    a = table.insert e ∧ value = e := by
  cases table <;> cases a <;> simp only [event, reduceCtorEq, Event.insert.injEq] at inserts <;>
    obtain ⟨rfl, rfl⟩ := inserts <;> exact ⟨rfl, rfl⟩

theorem event_remove {id : UInt64} (removes : table.event s a = .remove id) :
    table.Removes s a id := by
  cases table <;> cases a <;> simp_all [event, Removes]

@[simp] theorem event_of_fetch (e : RequestId) : table.event s (table.fetch e) = .fetch e := by
  cases table <;> rfl

@[simp] theorem event_of_insert (e : RequestId) :
    table.event s (table.insert e) = .insert e e := by
  cases table <;> rfl

/-- Every other step leaves the counter and the entries alone. -/
theorem entries_quiet (quiet : table.event s a = .other) :
    table.counter (next s a) = table.counter s ∧ table.entries (next s a) = table.entries s := by
  cases table <;> cases a <;> simp only [event, reduceCtorEq] at quiet <;>
    simp only [next, counter, entries] <;> (repeat' split) <;> exact ⟨rfl, rfl⟩

theorem handlers_not_inserting (t : Task) :
    t.handler ≠ table.inserting ∧ t.threadHandler ≠ table.inserting ∧
      t.lockHandler ≠ table.inserting := by
  cases t <;> cases table <;> decide

/-- It also leaves the callers where they are. -/
theorem inserting_quiet (enabled : Enabled s a) (quiet : table.event s a = .other)
    (e : RequestId) :
    (((next s a).request e).pc = table.inserting ↔ (s.request e).pc = table.inserting) ∧
      ((s.request e).pc = table.inserting → ((next s a).request e).id = (s.request e).id) := by
  by_cases other : e ≠ a.actor
  · rw [request_next_of_ne s other]
    exact ⟨.rfl, fun _ => rfl⟩
  · obtain rfl := not_not.mp other
    have handlers := fun message => table.handlers_not_inserting (task message)
    cases table <;> cases a <;> simp only [event, reduceCtorEq] at quiet <;>
      simp only [Enabled] at enabled <;> simp only [inserting] at handlers ⊢ <;>
      simp only [next, Action.actor] <;> (repeat' split) <;> simp_all

theorem view_quiet (enabled : Enabled s a) (quiet : table.event s a = .other) :
    table.view (next s a) = table.view s := by
  obtain ⟨counter, entries⟩ := table.entries_quiet quiet
  refine Allocation.State.ext counter (funext fun e => ?_) entries
  obtain ⟨stays, same⟩ := table.inserting_quiet enabled quiet e
  unfold view candidate
  by_cases inside : (s.request e).pc = table.inserting
  · simp only [if_pos inside, if_pos (stays.mpr inside), same inside]
  · simp only [if_neg inside, if_neg (fun later => inside (stays.mp later))]

@[simp] theorem actor_fetch (e : RequestId) : (table.fetch e).actor = e := by
  cases table <;> rfl

@[simp] theorem actor_insert (e : RequestId) : (table.insert e).actor = e := by
  cases table <;> rfl

theorem view_fetch (e : RequestId) :
    table.view (next s (table.fetch e)) = Allocation.apply (table.view s) (.fetch e) := by
  refine Allocation.State.ext (by cases table <;> rfl) (funext fun x => ?_) (by cases table <;> rfl)
  by_cases same : x = e
  · subst same
    cases table <;> simp [view, candidate, fetch, next, inserting, counter, Allocation.apply]
  · have other := request_next_of_ne s (a := table.fetch e) (x := x) (by simpa using same)
    simp [view, other, Allocation.apply, Function.update_of_ne same]

/-- An attempt with a vacant entry. -/
theorem insert_vacant {e : RequestId} (vacant : table.entries s (s.request e).id = none) :
    table.entries (next s (table.insert e)) =
        Function.update (table.entries s) (s.request e).id (some e) ∧
      table.Returned ((next s (table.insert e)).request e) (s.request e).id := by
  cases table with
  | interrupts =>
      have free : s.interrupts (s.request e).id = none := vacant
      simp only [insert, next, free, entries, Returned]
      exact ⟨funext fun x => by simp [Function.update_apply], by simp⟩
  | descriptors =>
      have free : s.descriptors (s.request e).id = none := vacant
      simp only [insert, next, free, entries, Returned]
      exact ⟨funext fun x => by simp [Function.update_apply], by simp⟩

/-- An attempt with an entry in use. -/
theorem insert_occupied {e value : RequestId}
    (occupied : table.entries s (s.request e).id = some value) :
    table.entries (next s (table.insert e)) = table.entries s ∧
      table.counter (next s (table.insert e)) = table.counter s ∧
      ((next s (table.insert e)).request e).pc = table.fetching := by
  cases table with
  | interrupts =>
      have used : s.interrupts (s.request e).id = some value := occupied
      simp only [insert, next, used, entries, counter, fetching]
      exact ⟨rfl, rfl, by simp⟩
  | descriptors =>
      have used : s.descriptors (s.request e).id = some value := occupied
      simp only [insert, next, used, entries, counter, fetching]
      exact ⟨rfl, rfl, by simp⟩

theorem Returned.not_inserting {request : Request} {id : UInt64}
    (returned : table.Returned request id) : request.pc ≠ table.inserting := by
  cases table <;> rw [returned.1] <;> decide

theorem counter_insert (e : RequestId) :
    table.counter (next s (table.insert e)) = table.counter s := by
  cases table <;> simp only [insert, next] <;> split <;> rfl

theorem view_insert {e : RequestId} (inside : (s.request e).pc = table.inserting) :
    table.view (next s (table.insert e)) = Allocation.apply (table.view s) (.insert e e) := by
  have tried : (table.view s).candidate e = some (s.request e).id := if_pos inside
  rw [Allocation.apply_insert, tried]
  have left : ((next s (table.insert e)).request e).pc ≠ table.inserting := by
    cases found : table.entries s (s.request e).id with
    | none => exact Returned.not_inserting table (table.insert_vacant found).2
    | some value =>
        rw [(table.insert_occupied found).2.2]
        cases table <;> decide
  refine Allocation.State.ext (table.counter_insert e) (funext fun x => ?_) ?_
  · by_cases same : x = e
    · subst same
      simp [view, candidate, left]
    · have other := request_next_of_ne s (a := table.insert e) (x := x) (by simpa using same)
      simp [view, other, Function.update_of_ne same]
  · cases found : table.entries s (s.request e).id with
    | none => simp [view, Allocation.bind, found, (table.insert_vacant found).1]
    | some value => simp [view, Allocation.bind, found, (table.insert_occupied found).1]

theorem not_inserting_of_remove (enabled : Enabled s a) {id : UInt64}
    (removes : table.Removes s a id) :
    (s.request a.actor).pc ≠ table.inserting ∧
      ((next s a).request a.actor).pc ≠ table.inserting := by
  cases table with
  | interrupts =>
      cases a with
      | removeInterrupt e =>
          have here : (s.request e).pc = .removeInterrupt := enabled
          simp only [Action.actor, next, here, inserting]
          split <;> simp
      | _ => exact removes.elim
  | descriptors =>
      cases a with
      | mapRemove e =>
          have here : (s.request e).pc = .mapRemove := enabled
          simp only [Action.actor, next, here, inserting]
          split <;> simp
      | _ => exact removes.elim

theorem entries_remove {id : UInt64} (removes : table.Removes s a id) :
    table.counter (next s a) = table.counter s ∧
      table.entries (next s a) = Function.update (table.entries s) id none := by
  cases table with
  | interrupts =>
      cases a with
      | removeInterrupt e =>
          obtain rfl : (s.request e).message.id = id := removes
          cases found : s.interrupts (s.request e).message.id with
          | none =>
              simp only [next, found, counter, entries, State.setRequest_interrupts]
              exact ⟨rfl, (Function.update_eq_self_iff.mpr found.symm).symm⟩
          | some worker =>
              simp only [next, found, counter, entries]
              exact ⟨rfl, funext fun x => by simp [Function.update_apply]⟩
      | _ => exact removes.elim
  | descriptors =>
      cases a with
      | mapRemove e =>
          obtain rfl : (s.request e).message.id = id := removes
          cases found : s.descriptors (s.request e).message.id with
          | none =>
              simp only [next, found, counter, entries, State.setRequest_descriptors]
              exact ⟨rfl, (Function.update_eq_self_iff.mpr found.symm).symm⟩
          | some r =>
              simp only [next, found, counter, entries]
              exact ⟨rfl, funext fun x => by simp [Function.update_apply]⟩
      | _ => exact removes.elim

theorem view_remove (enabled : Enabled s a) {id : UInt64} (removes : table.Removes s a id) :
    table.view (next s a) = Allocation.apply (table.view s) (.remove id) := by
  obtain ⟨before, after⟩ := table.not_inserting_of_remove enabled removes
  obtain ⟨counter, entries⟩ := table.entries_remove removes
  refine Allocation.State.ext counter (funext fun x => ?_) entries
  by_cases other : x ≠ a.actor
  · simp [view, Allocation.apply, request_next_of_ne s other]
  · obtain rfl := not_not.mp other
    simp [view, candidate, Allocation.apply, before, after]

/-- Each step of the owner is one of the table. -/
theorem view_next (enabled : Enabled s a) :
    table.view (next s a) = Allocation.apply (table.view s) (table.event s a) := by
  cases happens : table.event s a with
  | fetch e =>
      obtain rfl := table.event_fetch happens
      exact table.view_fetch e
  | insert e value =>
      obtain ⟨rfl, rfl⟩ := table.event_insert happens
      refine table.view_insert ?_
      cases table <;> exact enabled
  | remove id => exact table.view_remove enabled (table.event_remove happens)
  | other => exact table.view_quiet enabled happens

/-! ## The loop of one request -/

/-- The first `n` attempts of a request. -/
def attempts (table : Table) (e : RequestId) : Nat → List Action
  | 0 => []
  | n + 1 => table.fetch e :: table.insert e :: table.attempts e n

theorem fetch_next (e : RequestId) :
    table.entries (next s (table.fetch e)) = table.entries s ∧
      table.counter (next s (table.fetch e)) = table.counter s + 1 ∧
      ((next s (table.fetch e)).request e).pc = table.inserting ∧
      ((next s (table.fetch e)).request e).id = table.counter s := by
  cases table <;> exact ⟨rfl, rfl, by simp [fetch, next, inserting], by simp [fetch, next, counter]⟩

theorem enabled_attempt {e : RequestId} (loops : (s.request e).pc = table.fetching) :
    Enabled s (table.fetch e) ∧ Enabled (next s (table.fetch e)) (table.insert e) := by
  obtain ⟨-, -, inside, -⟩ := table.fetch_next (s := s) e
  cases table <;> exact ⟨loops, inside⟩

theorem exec_attempts {e : RequestId} (fetches : Enabled s (table.fetch e))
    (inserts : Enabled (next s (table.fetch e)) (table.insert e)) (n : Nat) :
    machine.exec (fun _ _ => True) (table.attempts e (n + 1)) s =
      machine.exec (fun _ _ => True) (table.attempts e n)
        (next (next s (table.fetch e)) (table.insert e)) := by
  have fetches' : machine.Enabled s (table.fetch e) ∧ True := ⟨fetches, trivial⟩
  have inserts' : machine.Enabled (machine.next s (table.fetch e)) (table.insert e) ∧ True :=
    ⟨inserts, trivial⟩
  simp only [attempts, Transition.Machine.exec, if_pos fetches', if_pos inserts']
  rfl

/-- The loop ends with the first ID that is not in use. -/
theorem attempts_end {e : RequestId} {k : Nat} (loops : (s.request e).pc = table.fetching)
    (occupied : ∀ j < k, table.entries s (table.counter s + UInt64.ofNat j) ≠ none)
    (vacant : table.entries s (table.counter s + UInt64.ofNat k) = none) :
    ∃ last, machine.exec (fun _ _ => True) (table.attempts e (k + 1)) s = some last ∧
      table.Returned (last.request e) (table.counter s + UInt64.ofNat k) ∧
      table.entries last =
        Function.update (table.entries s) (table.counter s + UInt64.ofNat k) (some e) := by
  induction k generalizing s with
  | zero =>
      obtain ⟨fetches, inserts⟩ := table.enabled_attempt loops
      obtain ⟨entries, -, -, id⟩ := table.fetch_next (s := s) e
      have free : table.entries (next s (table.fetch e)) ((next s (table.fetch e)).request e).id =
          none := by
        rw [entries, id]
        simpa using vacant
      obtain ⟨bound, returned⟩ := table.insert_vacant free
      refine ⟨next (next s (table.fetch e)) (table.insert e), ?_, ?_, ?_⟩
      · exact table.exec_attempts fetches inserts 0
      · simpa [id] using returned
      · simpa [entries, id] using bound
  | succ k ih =>
      obtain ⟨fetches, inserts⟩ := table.enabled_attempt loops
      obtain ⟨entries, counter, -, id⟩ := table.fetch_next (s := s) e
      have used := occupied 0 (Nat.succ_pos k)
      rw [show UInt64.ofNat 0 = 0 from rfl, add_zero, ← id, ← entries] at used
      obtain ⟨value, found⟩ := Option.ne_none_iff_exists'.mp used
      obtain ⟨same, stays, again⟩ := table.insert_occupied found
      rw [entries] at same
      have shift (j : Nat) : table.counter (next (next s (table.fetch e)) (table.insert e)) +
          UInt64.ofNat j = table.counter s + UInt64.ofNat (j + 1) := by
        rw [stays, counter, UInt64.ofNat_add, add_assoc, add_comm (UInt64.ofNat j)]
        rfl
      obtain ⟨last, ran, returned, final⟩ := ih again
        (fun j less => by rw [same, shift]; exact occupied (j + 1) (Nat.succ_lt_succ less))
        (by rw [same, shift]; exact vacant)
      rw [shift, same] at final
      rw [shift] at returned
      exact ⟨last, (table.exec_attempts fetches inserts (k + 1)).trans ran, returned, final⟩

/-- What the allocation of IDs guarantees in a run. -/
structure Allocated (table : Table) {n : Nat} (run : machine.Run n) : Prop where
  /-- An entry goes away by its removal only. -/
  kept : ∀ i < n, ∀ id value, table.entries (run.state i) id = some value →
    table.entries (run.state (i + 1)) id = some value ∨
      table.Removes (run.state i) (run.label i) id
  /-- An attempt takes the ID if it is vacant, and changes no entry otherwise. -/
  attempt : ∀ i < n, ∀ e, run.label i = table.insert e →
    (table.Allocates (run.state i) (run.label i) e ((run.state i).request e).id ∧
      table.entries (run.state (i + 1)) =
        Function.update (table.entries (run.state i)) ((run.state i).request e).id (some e) ∧
      table.Returned ((run.state (i + 1)).request e) ((run.state i).request e).id) ∨
    (table.entries (run.state (i + 1)) = table.entries (run.state i) ∧
      ((run.state (i + 1)).request e).pc = table.fetching)
  /-- Two entries with the same ID do not coexist. -/
  apart : ∀ i j, i < j → j < n → ∀ e e' id, table.Allocates (run.state i) (run.label i) e id →
    table.Allocates (run.state j) (run.label j) e' id →
    ∃ k, i < k ∧ k < j ∧ table.Removes (run.state k) (run.label k) id
  /-- The counter takes all other values before an ID is given out again: it does so between
  the two `fetch_add` that returned it. -/
  round : (∀ e, ((run.state 0).request e).pc ≠ table.inserting) →
    ∀ i j, i < j → j < n → ∀ e e' id, table.Allocates (run.state i) (run.label i) e id →
    table.Allocates (run.state j) (run.label j) e' id →
    ∃ p q, p < i ∧ q < j ∧ p ≠ q ∧
      run.label p = table.fetch e ∧ table.counter (run.state p) = id ∧
      run.label q = table.fetch e' ∧ table.counter (run.state q) = id ∧
      ∀ value, value ≠ id → ∃ k x, min p q < k ∧ k < max p q ∧
        run.label k = table.fetch x ∧ table.counter (run.state k) = value
  /-- A request that nobody disturbs makes at most one attempt more than there are entries. -/
  ends : ∀ i ≤ n, ∀ e, ((run.state i).request e).pc = table.fetching →
    ∀ occupied : Finset UInt64,
    (∀ id, id ∈ occupied ↔ table.entries (run.state i) id ≠ none) → occupied.card < 2 ^ 64 →
    ∃ k ≤ occupied.card, ∃ last,
      machine.exec (fun _ _ => True) (table.attempts e (k + 1)) (run.state i) = some last ∧
      table.Returned (last.request e) (table.counter (run.state i) + UInt64.ofNat k)

section
variable {n : Nat} (run : machine.Run n)

/-- The run as one of the general table. -/
def views (i : Nat) : Allocation.State RequestId RequestId := table.view (run.state i)

def events (i : Nat) : Event RequestId RequestId := table.event (run.state i) (run.label i)

theorem views_follow (i : Nat) (within : i < n) :
    table.views run (i + 1) = Allocation.apply (table.views run i) (table.events run i) := by
  unfold views
  rw [run.follows i within]
  exact table.view_next (run.enabled i within)

variable {table} {run} in
theorem Allocates.view {i : Nat} (within : i < n) {e : RequestId} {id : UInt64}
    (allocates : table.Allocates (run.state i) (run.label i) e id) :
    Allocation.Allocates (table.views run i) (table.events run i) e e id := by
  obtain ⟨inserts, same, vacant⟩ := allocates
  have enabled := run.enabled i within
  rw [inserts] at enabled
  have inside : ((run.state i).request e).pc = table.inserting := by cases table <;> exact enabled
  refine ⟨?_, ?_, vacant⟩
  · rw [events, inserts, event_of_insert]
  · rw [← same]
    exact if_pos inside

theorem kept_of_run (i : Nat) (within : i < n) (id : UInt64) (value : RequestId)
    (present : table.entries (run.state i) id = some value) :
    table.entries (run.state (i + 1)) id = some value ∨
      table.Removes (run.state i) (run.label i) id := by
  by_cases removes : table.events run i = .remove id
  · exact .inr (table.event_remove removes)
  · have kept := Allocation.apply_entries (s := table.views run i) present removes
    rw [← table.views_follow run i within] at kept
    exact .inl kept

theorem attempt_of_run (i : Nat) (within : i < n) (e : RequestId)
    (inserts : run.label i = table.insert e) :
    (table.Allocates (run.state i) (run.label i) e ((run.state i).request e).id ∧
      table.entries (run.state (i + 1)) =
        Function.update (table.entries (run.state i)) ((run.state i).request e).id (some e) ∧
      table.Returned ((run.state (i + 1)).request e) ((run.state i).request e).id) ∨
    (table.entries (run.state (i + 1)) = table.entries (run.state i) ∧
      ((run.state (i + 1)).request e).pc = table.fetching) := by
  have after : run.state (i + 1) = next (run.state i) (table.insert e) := by
    rw [run.follows i within, inserts]
    rfl
  rw [after]
  cases found : table.entries (run.state i) ((run.state i).request e).id with
  | none => exact .inl ⟨⟨inserts, rfl, found⟩, table.insert_vacant found⟩
  | some value =>
      obtain ⟨same, -, again⟩ := table.insert_occupied found
      exact .inr ⟨same, again⟩

theorem apart_of_run {i j : Nat} (later : i < j) (within : j < n) {e e' : RequestId} {id : UInt64}
    (first : table.Allocates (run.state i) (run.label i) e id)
    (second : table.Allocates (run.state j) (run.label j) e' id) :
    ∃ k, i < k ∧ k < j ∧ table.Removes (run.state k) (run.label k) id := by
  obtain ⟨k, after, before, removes⟩ := Allocation.removed_between (table.views_follow run) later
    within (first.view (later.trans within)) (second.view within)
  exact ⟨k, after, before, table.event_remove removes⟩

theorem isFetch_events {k : Nat} (fetches : (table.events run k).isFetch) :
    ∃ x, run.label k = table.fetch x := by
  cases happens : table.events run k with
  | fetch x => exact ⟨x, table.event_fetch happens⟩
  | _ =>
      rw [happens] at fetches
      cases fetches

/-- The fetches of two allocations of one ID are different ones. -/
theorem fetches_of_run (idle : ∀ e, ((run.state 0).request e).pc ≠ table.inserting) {i j : Nat}
    (later : i < j) (within : j < n) {e e' : RequestId} {id : UInt64}
    (first : table.Allocates (run.state i) (run.label i) e id)
    (second : table.Allocates (run.state j) (run.label j) e' id) :
    ∃ p q, p < i ∧ q < j ∧ p ≠ q ∧
      run.label p = table.fetch e ∧ table.counter (run.state p) = id ∧
      run.label q = table.fetch e' ∧ table.counter (run.state q) = id := by
  have starts (x : RequestId) : (table.views run 0).candidate x = none := if_neg (idle x)
  have allocates := first.view (later.trans within)
  have allocates' := second.view within
  obtain ⟨p, before, fetch, counter, -⟩ := Allocation.fetched_before (table.views_follow run)
    (later.trans within).le (starts e) allocates.2.1
  obtain ⟨q, before', fetch', counter', since⟩ := Allocation.fetched_before
    (table.views_follow run) within.le (starts e') allocates'.2.1
  refine ⟨p, q, before, before', ?_, table.event_fetch fetch, counter, table.event_fetch fetch',
    counter'⟩
  -- the first allocation spends its candidate, so the second one must have fetched again
  rintro rfl
  obtain rfl : e = e' := Event.fetch.inj (fetch.symm.trans fetch')
  have spent := allocates.spent
  rw [← table.views_follow run i (later.trans within), since (i + 1) (by omega) later] at spent
  cases spent

theorem round_of_fetches {p q : Nat} (later : p < q) (within : q < n) {e : RequestId}
    {id : UInt64} (fetch : run.label p = table.fetch e) (counter : table.counter (run.state p) = id)
    (again : table.counter (run.state q) = id) {value : UInt64} (other : value ≠ id) :
    ∃ k x, p < k ∧ k < q ∧ run.label k = table.fetch x ∧ table.counter (run.state k) = value := by
  have first : (table.events run p).isFetch := by
    rw [events, fetch, event_of_fetch]
    rfl
  obtain ⟨k, after, before, fetches, reached⟩ := Allocation.all_fetched_between
    (table.views_follow run) later within.le first counter again other
  obtain ⟨x, label⟩ := table.isFetch_events run fetches
  exact ⟨k, x, after, before, label, reached⟩

theorem ends_of_state {e : RequestId} (loops : (s.request e).pc = table.fetching)
    {occupied : Finset UInt64} (exact_ : ∀ id, id ∈ occupied ↔ table.entries s id ≠ none)
    (room : occupied.card < 2 ^ 64) :
    ∃ k ≤ occupied.card, ∃ last,
      machine.exec (fun _ _ => True) (table.attempts e (k + 1)) s = some last ∧
      table.Returned (last.request e) (table.counter s + UInt64.ofNat k) := by
  obtain ⟨k, bound, vacant, used⟩ := Allocation.exists_vacant occupied room (table.counter s)
  have free := not_not.mp (mt (exact_ _).mpr vacant)
  obtain ⟨last, ran, returned, -⟩ :=
    table.attempts_end loops (fun j less => (exact_ _).mp (used j less)) free
  exact ⟨k, bound, last, ran, returned⟩

end

end Table

/-- The counter is about to wrap, and its value is in use. -/
def wrapping : State :=
  { initial with
    interruptNextId := 2 ^ 64 - 1
    interrupts := fun id => if id = 2 ^ 64 - 1 then some 5 else none
    request := fun e =>
      if e = 0 then { Request.idle with pc := .fetchInterrupt } else Request.idle }

def wrappingLabel (i : Nat) : Action := if i % 2 = 0 then .fetchInterrupt 0 else .insertInterrupt 0

def wrappingState : Nat → State
  | 0 => wrapping
  | i + 1 => next (wrappingState i) (wrappingLabel i)

/-- Two attempts of one request. -/
def wrappingRun : machine.Run 4 where
  state := wrappingState
  label := wrappingLabel
  enabled := by decide +kernel
  follows := fun _ _ => rfl

end Ulockmgr.Owner
