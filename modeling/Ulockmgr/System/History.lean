import Ulockmgr.Owner.Agreement
import Ulockmgr.System.Interrupts

/-!
# Lock calls take effect as they are reported

A sequential history of lock calls against one owner.  In runs in which the first attempt of
every worker is refused, the locks of the owner process are at all times those of
the granted calls, in the order of the calls; a call that is over was granted its lock exactly
if it returned `Ok`.  A worker whose first attempt is settled breaks this: it tries again after
its call has returned.
-/

namespace Ulockmgr.System

open Owner (RequestId Request)

/-- The call has returned. -/
def Pc.isReturned : Pc → Bool
  | .returned _ => true
  | _ => false

/-- The call has returned `Ok`. -/
def Call.isOk (call : Call) : Bool :=
  match call.pc with
  | .returned (.ok _) => true
  | _ => false

/-- No call is outstanding. -/
def Quiet (s : State) : Prop := ∀ c < s.calls, (s.call c).pc.isReturned = true

/-- The steps of a sequential history of calls that set locks: a call is made when all
earlier ones have returned, files stay registered, and the receiving loop goes on. -/
def Sequential (s : State) : Action → Prop
  | .call _ action _ | .callFails _ action _ _ => action ≠ .getLockStatus ∧ Quiet s
  | .send message => Owner.task message ≠ .unregister
  | .owner (.acquireExit _) => s.owner.exitLock.exited = false
  | .owner (.trackerNewFails _ _) | .owner .hangUp | .owner (.startThreadFails _) => False
  | _ => True

/-- The first attempt of a worker is refused, and clients can unblock their signals. -/
def Contended : Action → Prop
  | .owner (.firstTry _ result) => result = .failed Errno.AGAIN
  | .unblockFails _ _ => False
  | _ => True

/-- What the parameters of a call come to when they are granted. -/
structure Resolves (s : State) (c : CallId) (grant : Grant) : Prop where
  file : ∃ r, s.owner.descriptors (s.call c).id = some r ∧
    (s.owner.data r).descriptor = .file grant.file
  range : ∃ position size, (s.call c).params.toFlock.range position size = some grant.range
  kind : (s.call c).params.toFlock.kind = some grant.kind

/-- The locks of the owner are those of the calls that returned `Ok`, applied in the order of the
calls, each resolved when it was granted. -/
def TakesEffect (s : State) : Prop :=
  ∃ grants : CallId → Grant,
    (∀ c < s.calls, (s.call c).isOk = true → Resolves s c (grants c)) ∧
      s.owner.kernel.held =
        (((List.range s.calls).filter fun c => (s.call c).isOk).map grants).foldl
          Kernel.applyGrant Kernel.initial.held

/-! ## The invariant -/

/-- The last operation granted to a call. -/
def State.grantOfCall (s : State) (c : CallId) : Option Grant :=
  (s.call c).endpoint.bind fun e => (s.owner.request e).grant

structure Effects (s : State) : Prop where
  owner : Owner.Granted s.owner
  unsent : ∀ c, (s.call c).endpoint = none → (s.call c).isOk = false
  kept : ∀ x message, Carries s x message → Owner.task message ≠ .unregister
  lockers : ∀ x message, Carries s x message → (Owner.task message).Locks →
    ∃ c, (s.call c).endpoint = some x
  sets : ∀ c e, (s.call c).endpoint = some e → (s.call c).action ≠ .getLockStatus
  earlier : ∀ c, c + 1 < s.calls → (s.call c).pc.isReturned = true
  held : s.owner.kernel.held =
    ((List.range s.calls).filterMap s.grantOfCall).foldl Kernel.applyGrant Kernel.initial.held

theorem effects_initial : Effects initial where
  owner := Owner.granted_initial
  unsent := by simp [initial, Call.idle, Call.isOk]
  kept := by simp [initial, Carries, Owner.initial, Request.idle]
  lockers := by simp [initial, Carries, Owner.initial, Request.idle]
  sets := by simp [initial, Call.idle]
  earlier := by simp [initial]
  held := rfl

section EffectsStep
variable {s : State} {a : Action} (owner : Owner.machine.Reachable s.owner) (queued : Queued s)
  (linked : Linked s) (dialogue : Dialogue s) (inv : Effects s) (enabled : Enabled s a)
  (sequential : Sequential s a) (contended : Contended a)

include inv enabled sequential contended in
/-- What the owner does in such a run. -/
theorem lasting_step :
    (next s a).owner = s.owner ∨
      ∃ b, Owner.Enabled s.owner b ∧ Owner.Lasting s.owner b ∧
        (next s a).owner = Owner.next s.owner b ∧ (next s a).calls = s.calls := by
  rcases owner_cases enabled with same | ⟨b, rfl, _, step, moves⟩ |
    ⟨e, message, rest, rfl, queue, _, step, moves⟩ | ⟨x, signal, reads, step, moves⟩
  · exact .inl same
  · refine .inr ⟨b, step, ?_, moves, rfl⟩
    cases b with
    | firstTry e result => exact contended
    | acquireExit e => exact sequential
    | trackerNewFails e error => exact sequential
    | recv e message => cases enabled.1
    | _ => trivial
  · refine .inr ⟨_, step, inv.kept e message (.inl ?_), moves, by simp [next, queue]⟩
    rw [queue]
    exact List.mem_cons_self
  · refine .inr ⟨_, step, trivial, moves, ?_⟩
    cases a <;> simp only [Reads] at reads <;> simp only [next] <;> (repeat' split) <;>
      simp [State.fetch]

include owner inv enabled sequential contended in
theorem Effects.owner_next : Owner.Granted (next s a).owner := by
  rcases lasting_step inv enabled sequential contended with same | ⟨b, step, lasting, moves, _⟩
  · rw [same]
    exact inv.owner
  · rw [moves]
    exact Owner.granted_next (Owner.reachable_served owner) (Owner.reachable_clones owner)
      (Owner.reachable_attempts owner) (Owner.reachable_idle owner) inv.owner step lasting

include linked inv enabled in
theorem Effects.unsent_next (c : CallId) (none_ : ((next s a).call c).endpoint = none) :
    ((next s a).call c).isOk = false := by
  by_cases own : caller s a = some c
  · have step := callStep enabled own
    have before : c = s.calls ∨ (s.call c).endpoint = none := by
      rcases step.keeps with fresh | ⟨same, _⟩
      · exact .inl fresh
      · exact .inr (same ▸ none_)
    cases step with
    | call _ _ _ _ becomes =>
        rw [becomes] at none_
        cases none_
    | callFails _ _ _ _ _ becomes => simp [becomes, Call.isOk]
    | firstReply _ _ place _ _ _ | wait _ _ _ place _ _ _ _ | unblockFails _ place _
    | sendInterrupt place _ | interruptReply _ _ place _ _ | sendRemove _ place _
    | removeReply _ _ place _ _ =>
        rcases before with fresh | unsent
        · rw [linked.unused c fresh.ge] at place
          cases place
        · rcases linked.sent c unsent with idle | ⟨_, returned⟩
          · rw [idle] at place
            cases place
          · rw [returned] at place
            cases place
  · rw [call_next_of_ne own] at none_ ⊢
    exact inv.unsent c none_

include inv enabled sequential in
theorem Effects.kept_next (x : RequestId) (message : Message)
    (carries : Carries (next s a) x message) : Owner.task message ≠ .unregister := by
  rcases carries_cases enabled carries with before | ⟨_, sender, new⟩
  · exact inv.kept x message before
  · cases a with
    | send plain =>
        cases new
        exact sequential
    | call id action params =>
        cases new
        cases action <;> simp [Owner.task]
    | sendInterrupt c | sendRemove c =>
        cases new
        simp [Owner.task]
    | _ => cases new

include linked inv enabled in
theorem Effects.lockers_next (x : RequestId) (message : Message)
    (carries : Carries (next s a) x message) (locks : (Owner.task message).Locks) :
    ∃ c, ((next s a).call c).endpoint = some x := by
  rcases carries_cases enabled carries with before | ⟨rfl, sender, new⟩
  · obtain ⟨c, endpoint⟩ := inv.lockers x message before locks
    exact ⟨c, (linked.keeps enabled endpoint).1⟩
  · cases a with
    | call id action params => exact ⟨s.calls, by simp [next]⟩
    | send plain =>
        cases new
        cases message with
        | ping | register | unregister => exact locks.elim
        | interrupt | removeInterrupt | lockCommand => cases enabled
    | sendInterrupt c | sendRemove c =>
        cases new
        exact locks.elim
    | _ => cases new

include linked inv enabled sequential in
theorem Effects.sets_next (c : CallId) (e : RequestId)
    (endpoint : ((next s a).call c).endpoint = some e) :
    ((next s a).call c).action ≠ .getLockStatus := by
  by_cases own : caller s a = some c
  · have step := callStep enabled own
    rcases step.keeps with fresh | ⟨same, action, _⟩
    · cases step with
      | call id action params _ becomes =>
          rw [becomes]
          exact sequential.1
      | callFails _ _ _ _ _ becomes =>
          rw [becomes] at endpoint
          cases endpoint
      | firstReply _ _ place _ _ _ | wait _ _ _ place _ _ _ _ | unblockFails _ place _
      | sendInterrupt place _ | interruptReply _ _ place _ _ | sendRemove _ place _
      | removeReply _ _ place _ _ =>
          rw [linked.unused c fresh.ge] at place
          cases place
    · rw [action]
      exact inv.sets c e (same ▸ endpoint)
  · rw [call_next_of_ne own] at endpoint ⊢
    exact inv.sets c e endpoint

omit owner queued linked dialogue inv enabled sequential contended in
theorem calls_next (s : State) (a : Action) :
    (next s a).calls = s.calls ∨
      (next s a).calls = s.calls + 1 ∧ (next s a).owner = s.owner ∧
        ((∃ id action params, a = .call id action params) ∨
          ∃ id action params error, a = .callFails id action params error) := by
  cases a with
  | call id action params => exact .inr ⟨rfl, rfl, .inl ⟨_, _, _, rfl⟩⟩
  | callFails id action params error => exact .inr ⟨rfl, rfl, .inr ⟨_, _, _, _, rfl⟩⟩
  | _ =>
      left
      simp only [next]
      (repeat' split) <;> simp [State.fetch]

include linked inv enabled sequential in
theorem Effects.earlier_next (c : CallId) (below : c + 1 < (next s a).calls) :
    ((next s a).call c).pc.isReturned = true := by
  have before : (s.call c).pc.isReturned = true := by
    rcases calls_next s a with same | ⟨more, _, ⟨_, _, _, rfl⟩ | ⟨_, _, _, _, rfl⟩⟩
    · exact inv.earlier c (same ▸ below)
    · rw [more] at below
      exact sequential.2 c (Nat.lt_of_succ_lt_succ below)
    · rw [more] at below
      exact sequential.2 c (Nat.lt_of_succ_lt_succ below)
  cases place : (s.call c).pc with
  | returned result =>
      rw [linked.returned_stays enabled place]
      exact before
  | _ =>
      rw [place] at before
      cases before

/-! ## The locks of the process -/

omit owner queued linked dialogue inv enabled sequential contended in
/-- A step that grants nothing leaves the history alone. -/
theorem history_same {t : State} (same : ∀ c < s.calls, t.grantOfCall c = s.grantOfCall c)
    (calls : t.calls = s.calls ∨ t.calls = s.calls + 1 ∧ t.grantOfCall s.calls = none) :
    (List.range t.calls).filterMap t.grantOfCall =
      (List.range s.calls).filterMap s.grantOfCall := by
  have below : (List.range s.calls).filterMap t.grantOfCall =
      (List.range s.calls).filterMap s.grantOfCall :=
    List.filterMap_congr fun c member => same c (List.mem_range.mp member)
  rcases calls with equal | ⟨more, nothing⟩
  · rw [equal, below]
  · rw [more, List.range_succ, List.filterMap_append, below]
    simp [nothing]

omit owner queued linked dialogue inv enabled sequential contended in
/-- A grant goes to the last call. -/
theorem history_grow {t : State} {c : CallId} {grant : Grant} (last : s.calls = c + 1)
    (calls : t.calls = s.calls) (same : ∀ d < c, t.grantOfCall d = s.grantOfCall d)
    (before : s.grantOfCall c = none) (after : t.grantOfCall c = some grant) :
    (List.range t.calls).filterMap t.grantOfCall =
      (List.range s.calls).filterMap s.grantOfCall ++ [grant] := by
  have below : (List.range c).filterMap t.grantOfCall = (List.range c).filterMap s.grantOfCall :=
    List.filterMap_congr fun d member => same d (List.mem_range.mp member)
  rw [calls, last, List.range_succ, List.filterMap_append, List.filterMap_append, below]
  simp [before, after]

include linked enabled in
theorem endpoint_next {c : CallId} (made : c < s.calls) :
    ((next s a).call c).endpoint = (s.call c).endpoint := by
  by_cases own : caller s a = some c
  · rcases (callStep enabled own).keeps with fresh | ⟨same, _⟩
    · exact (made.ne fresh).elim
    · exact same
  · rw [call_next_of_ne own]

include owner queued linked dialogue inv in
/-- The lock operation of a request is one of the last call. -/
theorem Effects.last_call {b : Owner.Action} (step : Owner.Enabled s.owner b) {e : RequestId}
    {result : Owner.Fcntl} (performs : b.operation = some (e, result)) :
    ∃ c, (s.call c).endpoint = some e ∧ s.calls = c + 1 := by
  have served := Owner.reachable_served owner
  have place : (s.owner.request e).pc = .setlk ∨ (s.owner.request e).pc = .firstTry ∨
      (s.owner.request e).pc = .setlkw := by
    cases b <;> cases performs
    · exact .inl step.1
    · exact .inr (.inl step.1)
    · exact .inr (.inr step.1)
  have running : (s.owner.request e).pc ≠ .idle := by
    rcases place with place | place | place <;> rw [place] <;> decide
  have locks : (Owner.task (s.owner.request e).message).Locks := by
    have serves := served.serves e running
    rcases place with place | place | place <;> rw [place] at serves <;>
      simp only [Owner.Pc.Serves] at serves <;> rw [serves] <;> trivial
  obtain ⟨c, endpoint⟩ := inv.lockers e _ (.inr ⟨running, rfl⟩) locks
  refine ⟨c, endpoint, ?_⟩
  have made : c < s.calls := by
    by_contra unused
    rw [linked.unused c (Nat.not_lt.mp unused)] at endpoint
    cases endpoint
  refine (Nat.eq_or_lt_of_le (Nat.succ_le_of_lt made)).elim Eq.symm ?_
  -- an earlier call has returned, and its request has nothing left to do
  intro below
  exfalso
  have returned := inv.earlier c below
  obtain ⟨replies, unfinished⟩ := Owner.operation_replies step performs
    (Owner.reachable_transcript owner e running locks) (inv.owner.first e)
  have heard := dialogue.heard c e endpoint
  cases ended : (s.call c).pc with
  | returned result =>
      simp only [Call.Heard, ended] at heard
      rcases heard with ⟨last, rest, two, _⟩ | ⟨reply, rest, one, settles⟩ | ⟨finished, _⟩
      · rcases replies with empty | ⟨id, single⟩
        · rw [two] at empty
          cases empty
        · rw [two] at single
          cases single
      · rcases replies with empty | ⟨id, single⟩
        · rw [one] at empty
          cases empty
        · rw [one] at single
          cases single
          rcases settles with ⟨_, done, _⟩ | ⟨_, fails, _⟩
          · cases done
          · cases fails
      · exact unfinished finished
  | _ =>
      rw [ended] at returned
      cases returned

include owner queued linked dialogue inv enabled sequential contended in
theorem Effects.held_next :
    (next s a).owner.kernel.held =
      ((List.range (next s a).calls).filterMap (next s a).grantOfCall).foldl
        Kernel.applyGrant Kernel.initial.held := by
  have fresh := Owner.reachable_idle owner
  have kept : (∀ e, ((next s a).owner.request e).grant = (s.owner.request e).grant) →
      ∀ c < s.calls, (next s a).grantOfCall c = s.grantOfCall c := by
    intro grants c made
    simp only [State.grantOfCall, endpoint_next linked enabled made, grants]
  rcases lasting_step inv enabled sequential contended with same | ⟨b, step, lasting, moves, calls⟩
  · rw [same, inv.held]
    refine congrArg _ (history_same (kept fun e => by rw [same]) ?_).symm
    rcases calls_next s a with equal | ⟨more, _, ⟨_, _, _, rfl⟩ | ⟨_, _, _, _, rfl⟩⟩
    · exact .inl equal
    · have idle := fresh s.sent (queued.fresh s.sent le_rfl)
      exact .inr ⟨more, by simp [State.grantOfCall, next, idle, Request.idle]⟩
    · exact .inr ⟨more, by simp [State.grantOfCall, next, newCall, Call.idle]⟩
  · have served := Owner.reachable_served owner
    have clones := Owner.reachable_clones owner
    cases performs : b.operation with
    | none =>
        have grants : ∀ e, ((next s a).owner.request e).grant = (s.owner.request e).grant := by
          intro e
          rw [moves]
          exact Owner.grant_next step performs fresh e
        rw [history_same (kept grants) (.inl calls), ← inv.held, moves]
        exact Owner.held_next performs (inv.owner.open_ served clones step lasting)
    | some operation =>
        obtain ⟨e, result⟩ := operation
        obtain ⟨held, grant⟩ := Owner.operation_next (s := s.owner) performs
        obtain ⟨nothing, _⟩ := inv.owner.operation_succeeded served
          (Owner.reachable_attempts owner) step lasting performs
        rw [nothing, Option.or_none, ← moves] at grant
        have others : ∀ x, x ≠ e →
            ((next s a).owner.request x).grant = (s.owner.request x).grant := by
          intro x other
          rw [moves, Owner.request_next_of_ne s.owner (Owner.operation_actor performs ▸ other)]
        cases granted : s.owner.grantBy e result with
        | none =>
            have grants : ∀ x, ((next s a).owner.request x).grant = (s.owner.request x).grant := by
              intro x
              by_cases own : x = e
              · rw [own, grant, granted, nothing]
              · exact others x own
            rw [history_same (kept grants) (.inl calls), ← inv.held, moves, held,
              Owner.State.afterFcntl, granted]
        | some gained =>
            obtain ⟨c, endpoint, last⟩ :=
              inv.last_call owner queued linked dialogue step performs
            have sender := (linked.lock c e endpoint).1
            have before : s.grantOfCall c = none := by simp [State.grantOfCall, endpoint, nothing]
            have after : (next s a).grantOfCall c = some gained := by
              simp [State.grantOfCall, (linked.keeps enabled endpoint).1, grant, granted]
            have same : ∀ d < c, (next s a).grantOfCall d = s.grantOfCall d := by
              intro d earlier
              have made : d < s.calls := by
                rw [last]
                exact Nat.lt_succ_of_lt earlier
              simp only [State.grantOfCall, endpoint_next linked enabled made]
              cases other : (s.call d).endpoint with
              | none => rfl
              | some x =>
                  have apart : x ≠ e := by
                    rintro rfl
                    rw [(linked.lock d x other).1] at sender
                    cases sender
                    exact Nat.lt_irrefl _ earlier
                  simp [others x apart]
            rw [history_grow last calls same before after, List.foldl_append, ← inv.held, moves,
              held, Owner.State.afterFcntl, granted]
            rfl

end EffectsStep

theorem reachable_effects {s : State}
    (reached : machine.ReachableVia (fun s a => Sequential s a ∧ Contended a) s) :
    Effects s ∧ Dialogue s := by
  have calm : ∀ s a, Sequential s a ∧ Contended a → Calm a = true := by
    rintro s a ⟨sequential, contended⟩
    unfold Calm
    split
    · exact contended.elim
    · exact sequential.elim
    · exact sequential.elim
    · rfl
  refine ⟨?_, reachable_dialogue calm reached⟩
  induction reached with
  | initial starts =>
      cases starts
      exact effects_initial
  | step reached enabled good ih =>
      have owner := reachable_owner reached
      obtain ⟨queued, linked⟩ := reachable_linked reached
      have dialogue := reachable_dialogue calm reached
      obtain ⟨sequential, contended⟩ := good
      exact
        { owner := ih.owner_next owner enabled sequential contended
          unsent := ih.unsent_next linked enabled
          kept := ih.kept_next enabled sequential
          lockers := ih.lockers_next linked enabled
          sets := ih.sets_next linked enabled sequential
          earlier := ih.earlier_next linked enabled sequential
          held := ih.held_next owner queued linked dialogue enabled sequential contended }

/-! ## Calls that have returned -/

section Returned
variable {s : State} (owner : Owner.machine.Reachable s.owner) (queued : Queued s)
  (linked : Linked s) (dialogue : Dialogue s) (inv : Effects s)
include owner queued linked dialogue inv

/-- A call that has returned was granted its lock exactly if it returned `Ok`. -/
theorem Effects.isOk_iff {c : CallId} (returned : (s.call c).pc.isReturned = true) :
    (s.call c).isOk = true ↔ (s.grantOfCall c).isSome = true := by
  cases endpoint : (s.call c).endpoint with
  | none => simp [State.grantOfCall, endpoint, inv.unsent c endpoint]
  | some e =>
      have heard := dialogue.heard c e endpoint
      cases place : (s.call c).pc with
      | returned result =>
          simp only [Call.Heard, place] at heard
          have running : (s.owner.request e).pc ≠ .idle := by
            intro idle
            have fresh := Owner.reachable_idle owner e idle
            rw [fresh] at heard
            rcases heard with ⟨_, _, two, _⟩ | ⟨_, _, one, _⟩ | ⟨finished, _⟩
            · cases two
            · cases one
            · cases finished
          have message := (linked.lock c e endpoint).2.received queued running
          have locks : Owner.task (s.owner.request e).message = .setLock ∨
              Owner.task (s.owner.request e).message = .setLockBlocking := by
            rw [message, Call.message]
            cases action : (s.call c).action with
            | getLockStatus => exact (inv.sets c e endpoint action).elim
            | setLockNonBlocking => exact .inl rfl
            | setLockBlocking => exact .inr rfl
          obtain ⟨agrees, silent⟩ :=
            Owner.replies_agree owner dialogue.alive running locks (inv.owner.first e)
          have settled : ∀ reply, reply ∈ (s.owner.request e).replies → Settles reply result →
              ((s.call c).isOk = true ↔ (s.owner.request e).Succeeded) := by
            rintro reply member (⟨params, rfl, rfl⟩ | ⟨errno, rfl, rfl⟩)
            · have succeeded : (s.owner.request e).Succeeded := agrees _ member
              simp [Call.isOk, place, succeeded]
            · have failed : ¬ (s.owner.request e).Succeeded := agrees _ member
              simp [Call.isOk, place, failed]
          have grant : (s.grantOfCall c).isSome = true ↔ (s.owner.request e).Succeeded := by
            rw [← inv.owner.succeeded e]
            simp [State.grantOfCall, endpoint]
          rw [grant]
          rcases heard with ⟨last, rest, two, settles⟩ | ⟨reply, rest, one, settles⟩ |
            ⟨finished, empty, error, rfl⟩
          · exact settled last (by rw [two]; simp) settles
          · exact settled reply (by rw [one]; simp) settles
          · have failed := silent finished empty
            simp [Call.isOk, place, failed]
      | _ =>
          rw [place] at returned
          cases returned

theorem Effects.resolves {c : CallId} {grant : Grant} (granted : s.grantOfCall c = some grant) :
    Resolves s c grant := by
  obtain ⟨e, endpoint, noted⟩ := Option.bind_eq_some_iff.mp granted
  have resolves := inv.owner.resolves e grant noted
  have found := inv.owner.found e (by rw [noted]; rfl)
  have running : (s.owner.request e).pc ≠ .idle := by
    intro idle
    rw [Owner.reachable_idle owner e idle] at noted
    cases noted
  have message := (linked.lock c e endpoint).2.received queued running
  have bound := inv.owner.bound e found
  rw [message] at bound
  obtain ⟨position, size, range⟩ := resolves.range
  have kind := resolves.kind
  rw [message] at range kind
  exact ⟨⟨_, bound, resolves.file⟩, ⟨position, size, range⟩, kind⟩

end Returned

instance (s : State) : Decidable (Quiet s) :=
  inferInstanceAs (Decidable (∀ c < s.calls, (s.call c).pc.isReturned = true))

def isSequential (s : State) : Action → Bool
  | .call _ action _ | .callFails _ action _ _ => action ≠ .getLockStatus ∧ Quiet s
  | .send message => Owner.task message ≠ .unregister
  | .owner (.acquireExit _) => s.owner.exitLock.exited = false
  | .owner (.trackerNewFails _ _) | .owner .hangUp | .owner (.startThreadFails _) => false
  | _ => true

theorem isSequential_iff (s : State) (a : Action) : isSequential s a = true ↔ Sequential s a := by
  unfold isSequential Sequential
  split <;> simp

instance (s : State) (a : Action) : Decidable (Sequential s a) :=
  decidable_of_iff _ (isSequential_iff s a)

def isContended : Action → Bool
  | .owner (.firstTry _ result) => result = .failed Errno.AGAIN
  | .unblockFails _ _ => false
  | _ => true

theorem isContended_iff (a : Action) : isContended a = true ↔ Contended a := by
  unfold isContended Contended
  split <;> simp

instance (a : Action) : Decidable (Contended a) := decidable_of_iff _ (isContended_iff a)

/-- A file is registered. -/
def registration : List Action :=
  [.send (.register (.file 7)), .deliver, .owner (.acquireExit 0), .owner (.trackerNew 0),
    .owner (.fetchId 0), .owner (.insertId 0), .owner (.reply 0)]

/-- A worker gets as far as its first attempt. -/
def workerStart : List Action :=
  [.call 0 .setLockBlocking ⟨.write, .start, 0, 10, 0⟩, .deliver, .owner (.mapGet 1),
    .owner (.spawn 1), .owner (.track 1), .owner (.spawnReturn 1), .owner (.release 1),
    .owner (.blockSignals 1 (.ok ()))]

/-- A lock that has to be waited for, and then an unlock. -/
def contendedRun : List Action :=
  registration ++ [.owner (.foreignLock 7 ⟨⟨0, 9⟩, .write⟩)] ++ workerStart ++
    [.owner (.firstTry 1 (.failed Errno.AGAIN)), .owner (.fetchInterrupt 1),
      .owner (.insertInterrupt 1), .owner (.replyFirst 1), .firstReply 0,
      .owner (.foreignUnlock 7 ⟨⟨0, 9⟩, .write⟩), .owner (.unblockSignal 1 (.ok ())),
      .owner (.setlkw 1 (.granted 0 0)), .owner (.replyLast 1), .wait 0 false, .sendRemove 0,
      .deliver, .owner (.removeInterrupt 2), .owner (.reply 2), .removeReply 0,
      .call 0 .setLockNonBlocking ⟨.unlock, .start, 0, 10, 0⟩, .deliver, .owner (.mapGet 3),
      .owner (.setlk 3 (.granted 0 0)), .owner (.reply 3), .owner (.release 3), .firstReply 1]

/-- The lock is free; the worker takes it again after the unlock. -/
def uncontendedRun : List Action :=
  registration ++ workerStart ++
    [.owner (.firstTry 1 (.granted 0 0)), .owner (.replyFirst 1), .firstReply 0,
      .call 0 .setLockNonBlocking ⟨.unlock, .start, 0, 10, 0⟩, .deliver, .owner (.mapGet 2),
      .owner (.setlk 2 (.granted 0 0)), .owner (.reply 2), .owner (.release 2), .firstReply 1,
      .owner (.unblockSignal 1 (.ok ())), .owner (.setlkw 1 (.granted 0 0))]

end Ulockmgr.System
