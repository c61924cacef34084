import Ulockmgr.System.Interruption
import Ulockmgr.System.Table

/-!
# The entries of the interrupt table

A worker enters itself once, and its entry goes when the `RemoveInterrupt` of its call is
handled; so the table holds the entries of the outstanding calls, and an `Interrupt` finds
the worker of the call that sent it.
-/

namespace Ulockmgr.System.Table

open Owner (RequestId Request)

section Step
variable {s : State} {a : System.Action} (owner : Owner.machine.Reachable s.owner)
  (queued : Queued s) (linked : Linked s) (inv : Matched s) (enabled : System.Enabled s a)

include owner queued linked enabled in
/-- A request with an entry was sent before the step. -/
theorem endpoint_before {c : CallId} {e : RequestId}
    (endpoint : ((System.next s a).call c).endpoint = some e)
    (inserted : ((System.next s a).owner.request e).Inserted) :
    (s.call c).endpoint = some e := by
  by_cases own : caller s a = some c
  · have step := callStep enabled own
    rcases step.keeps with fresh | ⟨same, _⟩
    · cases step with
      | call id action params _ becomes =>
          rw [becomes] at endpoint
          cases endpoint
          have idle := Owner.reachable_idle owner s.sent (queued.fresh s.sent le_rfl)
          have same : (System.next s (.call id action params)).owner = s.owner := rfl
          rw [same, idle] at inserted
          cases inserted.1
      | callFails _ _ _ _ _ becomes =>
          rw [becomes] at endpoint
          cases endpoint
      | firstReply _ _ place _ _ _ | wait _ _ _ place _ _ _ _ | unblockFails _ place _
      | sendInterrupt place _ | interruptReply _ _ place _ _ | sendRemove _ place _
      | removeReply _ _ place _ _ =>
          rw [linked.unused c fresh.ge] at place
          cases place
    · exact same ▸ endpoint
  · exact call_next_of_ne own ▸ endpoint

include owner queued linked inv enabled in
theorem Matched.listed_step (c : CallId) (e : RequestId)
    (outstanding : Outstanding (System.next s a) c e) :
    (System.next s a).owner.interrupts ((System.next s a).owner.request e).id = some e := by
  have endpoint := endpoint_before owner queued linked enabled outstanding.endpoint
    outstanding.inserted
  have still : ¬ Handled s c := mt (Handled.step queued inv enabled) outstanding.kept
  have inserted := outstanding.inserted
  rcases owner_step enabled with same | ⟨b, step, moves⟩
  · rw [same] at inserted ⊢
    exact inv.listed c e ⟨endpoint, inserted, still⟩
  · rw [moves] at inserted ⊢
    rcases Owner.inserted_cases step (Owner.reachable_attempts owner e) inserted with
      ⟨before, id⟩ | ⟨_, bound⟩
    · rw [id]
      have bound := inv.listed c e ⟨endpoint, before, still⟩
      rcases Owner.interrupts_next (a := b) bound with kept | ⟨x, rfl, same⟩
      · exact kept
      · rw [← same] at bound
        exact (Outstanding.kept_entry owner queued linked inv enabled endpoint outstanding.kept
          bound step moves).elim
    · exact bound

include owner linked enabled in
theorem Outstanding.step {c : CallId} {e : RequestId} (outstanding : Outstanding s c e)
    (kept : ¬ Handled (System.next s a) c) :
    Outstanding (System.next s a) c e ∧
      ((System.next s a).owner.request e).id = (s.owner.request e).id := by
  have endpoint := (linked.keeps enabled outstanding.endpoint).1
  rcases owner_step enabled with same | ⟨b, step, moves⟩
  · refine ⟨⟨endpoint, ?_, kept⟩, by rw [same]⟩
    rw [same]
    exact outstanding.inserted
  · have stays := outstanding.inserted.stays step (Owner.reachable_attempts owner e)
    rw [← moves] at stays
    exact ⟨⟨endpoint, stays.1, kept⟩, stays.2⟩

include owner queued linked inv in
/-- The worker that asks for an ID belongs to a call that has received nothing yet. -/
theorem Matched.inserting {e : RequestId} (inserts : (s.owner.request e).pc = .insertInterrupt) :
    ∃ c, (s.call c).endpoint = some e ∧ ¬ Handled s c := by
  have serves := (Owner.reachable_served owner).serves e (by rw [inserts]; decide)
  rw [inserts] at serves
  have blocking : Owner.task (s.owner.request e).message = .setLockBlocking := serves
  have carries : Carries s e (s.owner.request e).message := .inr ⟨by rw [inserts]; decide, rfl⟩
  obtain ⟨c, endpoint⟩ := inv.lockers e _ carries (by rw [blocking]; trivial)
  refine ⟨c, endpoint, ?_⟩
  rintro ⟨x, sender, _⟩
  obtain ⟨e', endpoint', inserted, _⟩ :=
    (inv.removes c x sender).entered.inserted owner queued linked
  rw [endpoint] at endpoint'
  cases endpoint'
  exact inserted.2.2 inserts

include owner queued linked inv enabled in
theorem Matched.owned_step (id : UInt64) (e : RequestId)
    (bound : (System.next s a).owner.interrupts id = some e) :
    ((System.next s a).owner.request e).id = id ∧ ∃ c, Outstanding (System.next s a) c e := by
  have keeps : s.owner.interrupts id = some e →
      ((System.next s a).owner.request e).id = id ∧ ∃ c, Outstanding (System.next s a) c e := by
    intro before
    obtain ⟨same, c, outstanding⟩ := inv.owned id e before
    have kept : ¬ Handled (System.next s a) c := by
      intro handled
      rcases Handled.cases owner queued inv enabled handled with old | ⟨x, sender, _, own, moves⟩
      · exact outstanding.kept old
      · obtain ⟨e', endpoint, _, entry⟩ :=
          (inv.removes c x sender).entered.inserted owner queued linked
        rw [outstanding.endpoint] at endpoint
        cases endpoint
        have gone := Owner.removeInterrupt_interrupts s.owner x
        rw [← moves, own, entry, same, bound] at gone
        cases gone
    obtain ⟨after, stays⟩ := outstanding.step owner linked enabled kept
    exact ⟨stays.trans same, c, after⟩
  rcases owner_step enabled with same | ⟨b, step, moves⟩
  · exact keeps (same ▸ bound)
  · rw [moves] at bound
    rcases Owner.interrupts_cases bound with before | ⟨rfl, same, vacant⟩
    · exact keeps before
    · -- the entry is new
      obtain ⟨c, endpoint, unhandled⟩ := inv.inserting owner queued linked step
      have kept : ¬ Handled (System.next s a) c := by
        intro handled
        rcases Handled.cases owner queued inv enabled handled with old | ⟨x, sender, own, _, other⟩
        · exact unhandled old
        · obtain ⟨e', endpoint', inserted, _⟩ :=
            (inv.removes c x sender).entered.inserted owner queued linked
          rw [endpoint] at endpoint'
          cases endpoint'
          exact inserted.2.2 step
      have again := (Owner.reachable_inserting owner step).2
      have enters : (System.next s a).owner.request e =
          { s.owner.request e with
            pc := .replyFirst, out := .ok (.lockCommand (.pending (s.owner.request e).id)) } := by
        rw [moves]
        simp [Owner.next, same, vacant]
      refine ⟨by rw [enters]; exact same, c, (linked.keeps enabled endpoint).1, ?_, kept⟩
      rw [enters]
      exact ⟨again, by simp, by simp⟩

include owner queued linked inv enabled in
theorem matched_step : Matched (System.next s a) where
  lockers := inv.lockers_step linked enabled
  unheard := inv.unheard_step owner queued linked enabled
  entered := inv.entered_step owner queued linked enabled
  askers := inv.askers_step queued enabled
  asks := inv.asks_step owner queued linked enabled
  removes := inv.removes_step owner queued linked enabled
  listed := inv.listed_step owner queued linked enabled
  owned := inv.owned_step owner queued linked enabled

end Step

section GivesUp
variable {s : State} {c : CallId} {pc : Pc} (gives : GivesUp s c pc)
include gives

theorem GivesUp.call_cases (d : CallId) :
    (s.setCall c { s.call c with pc := pc }).call d = s.call d ∨
      d = c ∧ (s.setCall c { s.call c with pc := pc }).call d = { s.call d with pc := pc } := by
  by_cases own : d = c
  · subst own
    exact .inr ⟨rfl, by simp⟩
  · exact .inl (by simp [own])

theorem GivesUp.endpoint (d : CallId) :
    ((s.setCall c { s.call c with pc := pc }).call d).endpoint = (s.call d).endpoint := by
  rcases gives.call_cases d with same | ⟨_, same⟩ <;> rw [same]

theorem GivesUp.interruptId (d : CallId) :
    ((s.setCall c { s.call c with pc := pc }).call d).interruptId = (s.call d).interruptId := by
  rcases gives.call_cases d with same | ⟨_, same⟩ <;> rw [same]

theorem GivesUp.entered {d : CallId} (entered : Entered s d) :
    Entered (s.setCall c { s.call c with pc := pc }) d := by
  refine ⟨?_, ?_⟩
  · rcases gives.call_cases d with same | ⟨_, same⟩ <;> rw [same]
    · exact entered.past
    · exact gives.started.2
  · rw [gives.endpoint d, gives.interruptId d]
    exact entered.answered

theorem GivesUp.outstanding {d : CallId} {e : RequestId} :
    Outstanding (s.setCall c { s.call c with pc := pc }) d e ↔ Outstanding s d e := by
  refine ⟨?_, ?_⟩
  · rintro ⟨endpoint, inserted, kept⟩
    exact ⟨gives.endpoint d ▸ endpoint, inserted, kept⟩
  · rintro ⟨endpoint, inserted, kept⟩
    exact ⟨(gives.endpoint d).trans endpoint, inserted, kept⟩

theorem GivesUp.matched (inv : Matched s) : Matched (s.setCall c { s.call c with pc := pc }) where
  lockers x message carries locks := by
    obtain ⟨d, endpoint⟩ := inv.lockers x message carries locks
    exact ⟨d, (gives.endpoint d).trans endpoint⟩
  unheard d e endpoint first := by
    rw [gives.endpoint d] at endpoint
    rcases gives.call_cases d with same | ⟨_, same⟩
    · rw [same] at first
      exact inv.unheard d e endpoint first
    · rw [same] at first
      exact (gives.started.2 first).elim
  entered d inside := by
    rcases gives.call_cases d with same | ⟨own, _⟩
    · rw [same] at inside
      exact gives.entered (inv.entered d inside)
    · exact gives.entered (inv.entered d (own ▸ gives.inside))
  askers := inv.askers
  asks d x sender := by
    have asks := inv.asks d x sender
    refine ⟨gives.entered asks.entered, ?_, ?_, ?_⟩
    · rw [gives.interruptId d]
      exact asks.carries
    · rcases asks.place with ⟨awaits, unread⟩ | finished
      · rcases gives.call_cases d with same | ⟨own, _⟩
        · rw [same]
          exact .inl ⟨awaits, unread⟩
        · subst own
          exact ((gives.awaits_nothing x).1.1 awaits).elim
      · exact .inr finished
    · rw [gives.endpoint d]
      exact asks.target
  removes d x sender := by
    have removes := inv.removes d x sender
    refine ⟨gives.entered removes.entered, ?_, ?_⟩
    · rw [gives.interruptId d]
      exact removes.carries
    · rcases gives.call_cases d with same | ⟨own, _⟩
      · rw [same]
        exact removes.place
      · subst own
        rcases removes.place with ⟨⟨result, awaits⟩, _⟩ | ⟨⟨result, returned⟩, _⟩
        · exact (((gives.awaits_nothing x).2 result).1 awaits).elim
        · exact (gives.not_returned result returned).elim
  listed d e outstanding := inv.listed d e (gives.outstanding.mp outstanding)
  owned id e bound := by
    obtain ⟨same, d, outstanding⟩ := inv.owned id e bound
    exact ⟨same, d, gives.outstanding.mpr outstanding⟩

end GivesUp

/-! ## All runs -/

structure Consistent (s : State) : Prop where
  owner : Owner.machine.Reachable s.owner
  queued : Queued s
  linked : Linked s
  matched : Matched s

theorem consistent_next {s : State} {a : Action} (inv : Consistent s) (enabled : Enabled s a) :
    Consistent (next s a) := by
  obtain ⟨owner, queued, linked, matched⟩ := inv
  rcases step_cases enabled with ⟨b, rfl, step⟩ | ⟨c, pc, gives, moves, _⟩
  · refine ⟨?_, queued_next queued step, linked_next queued linked step,
      matched_step owner queued linked matched step⟩
    rcases owner_step step with same | ⟨b', step', moves⟩
    · exact same ▸ owner
    · exact moves ▸ Owner.reachable_next owner step'
  · rw [moves]
    exact ⟨owner, queued_setCall queued c _, gives.linked linked, gives.matched matched⟩

theorem consistent_initial : Consistent initial :=
  ⟨.initial rfl, queued_initial, linked_initial, matched_initial⟩

theorem reachable_consistent {Good : State → Action → Prop} {s : State}
    (reached : machine.ReachableVia Good s) : Consistent s := by
  apply reached.invariant
  · rintro _ rfl
    exact consistent_initial
  · intro state label inv enabled _
    exact consistent_next inv enabled

/-- An outstanding call has one entry in the table, that of its own worker, and every entry
belongs to one outstanding call. -/
theorem table_matches_calls {s : State} (reached : machine.Reachable s) :
    (∀ c e, Outstanding s c e →
      ∀ id, s.owner.interrupts id = some e ↔ id = (s.owner.request e).id) ∧
    (∀ id e, s.owner.interrupts id = some e → ∃! c, Outstanding s c e) := by
  have inv := reachable_consistent reached
  refine ⟨?_, ?_⟩
  · intro c e outstanding id
    refine ⟨?_, ?_⟩
    · intro bound
      exact (inv.matched.owned id e bound).1.symm
    · rintro rfl
      exact inv.matched.listed c e outstanding
  · intro id e bound
    obtain ⟨_, c, outstanding⟩ := inv.matched.owned id e bound
    refine ⟨c, outstanding, ?_⟩
    intro d other
    have same := (inv.linked.lock d e other.endpoint).1
    rw [(inv.linked.lock c e outstanding.endpoint).1] at same
    cases same
    rfl

/-- A call waits for its worker, which has entered itself into the table. -/
def pendingRun : List Action := (interruptedRun.take 19).map .step

theorem pending_call_listed :
    ∃ s, machine.Reachable s ∧ s.owner.interrupts 0 = some 1 ∧ ∃! c, Outstanding s c 1 := by
  obtain ⟨s, reached, bound⟩ : ∃ s, machine.Reachable s ∧ s.owner.interrupts 0 = some 1 :=
    Transition.Machine.exists_reachable_of_exec pendingRun rfl (by decide +kernel)
  exact ⟨s, reached, bound, (table_matches_calls reached).2 0 1 bound⟩

/-- An `Interrupt` stops the worker whose `Pending` its sender has received. -/
theorem interrupt_stops_own_worker {s : State} (reached : machine.Reachable s) {x : RequestId}
    (stops : (s.owner.request x).pc = .interruptStop) :
    ∃ c e, s.sender x = .interrupt c ∧ (s.call c).endpoint = some e ∧
      (s.owner.request x).message = .interrupt (s.call c).interruptId ∧
      (s.owner.request e).replies.head? = some (pendingReply (s.call c).interruptId) ∧
      (s.owner.request x).target = e := by
  have inv := reachable_consistent reached
  have running : (s.owner.request x).pc ≠ .idle := by
    rw [stops]
    decide
  have serves := (Owner.reachable_served inv.owner).serves x running
  rw [stops] at serves
  have interrupts : ∃ id, (s.owner.request x).message = .interrupt id := by
    cases message : (s.owner.request x).message with
    | interrupt id => exact ⟨id, rfl⟩
    | lockCommand id action params =>
        rw [message] at serves
        cases action <;> cases serves
    | ping | removeInterrupt id | register fd | unregister id =>
        rw [message] at serves
        cases serves
  obtain ⟨id, message⟩ := interrupts
  obtain ⟨c, sender⟩ := inv.matched.askers x id (.inr ⟨running, message⟩)
  have asks := inv.matched.asks c x sender
  obtain ⟨e, endpoint, pending⟩ := asks.entered.answered
  have target := asks.target stops
  rw [endpoint] at target
  exact ⟨c, e, sender, endpoint, asks.carries.received inv.queued running, pending,
    (Option.some.inj target).symm⟩

/-- The call is interrupted, and the owner has found its worker. -/
def stoppingRun : List Action := (interruptedRun.take 26).map .step

theorem pending_worker_stopped :
    ∃ s, machine.Reachable s ∧ (s.owner.request 2).pc = .interruptStop ∧
      ∃ c e, s.sender 2 = .interrupt c ∧ (s.call c).endpoint = some e ∧
        (s.owner.request 2).target = e := by
  obtain ⟨s, reached, stops⟩ :
      ∃ s, machine.Reachable s ∧ (s.owner.request 2).pc = .interruptStop :=
    Transition.Machine.exists_reachable_of_exec stoppingRun rfl (by decide +kernel)
  obtain ⟨c, e, sender, endpoint, _, _, target⟩ := interrupt_stops_own_worker reached stops
  exact ⟨s, reached, stops, c, e, sender, endpoint, target⟩

end Ulockmgr.System.Table
