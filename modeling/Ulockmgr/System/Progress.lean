import Mathlib.Data.Finset.Card
import Mathlib.Data.Prod.Lex
import Ulockmgr.Owner.Clones
import Ulockmgr.Owner.Progress
import Ulockmgr.System.Interrupts

/-!
# Calls return

Once the second attempt of its worker is over, a blocking call can go on to its return,
from every state a run can reach: the worker finishes, the owner comes to the requests of the
call, and the call reads their answers.
-/

namespace Ulockmgr.System

open Owner (RequestId Request Outcome)

/-- The steps of a run in which the receiving loop goes on, threads are created and signal
masks are set. -/
def Assumed : Action → Bool
  | .unblockFails _ _ | .owner .hangUp | .owner (.startThreadFails _) | .owner (.spawnFails _)
  | .owner (.blockSignals _ (.error _)) | .owner (.unblockSignal _ (.error _)) => false
  | _ => true

theorem Assumed.calm {a : Action} (assumed : Assumed a = true) : Calm a = true := by
  unfold Calm
  split <;> first | cases assumed | rfl

/-! ## The measure -/

/-- How far a call is from its return. -/
def Pc.rank : Pc → Nat
  | .first => 6
  | .sendInterrupt => 5
  | .awaitInterrupt _ => 4
  | .waiting => 3
  | .sendRemove _ => 2
  | .awaitRemove _ _ => 1
  | .idle | .returned _ => 0

/-- How far a worker is from its end, after its second attempt. -/
def workerRank : Owner.Pc → Nat
  | .replyLast => 5
  | .endCall => 4
  | .dropClone => 3
  | .untrack => 2
  | .markExited => 1
  | _ => 0

/-- How far an `Interrupt` or `RemoveInterrupt` is from its answer. -/
def requestRank : Owner.Pc → Nat
  | .idle => 6
  | .startThread => 5
  | .interruptLookup => 4
  | .interruptStop | .removeInterrupt => 3
  | .reply => 1
  | _ => 0

def awaitRank (s : State) : Pc → Nat
  | .awaitInterrupt x | .awaitRemove x _ => requestRank (s.owner.request x).pc
  | _ => 0

def stage (s : State) (c : CallId) (e : RequestId) : Nat :=
  100 * (s.call c).pc.rank + 10 * workerRank (s.owner.request e).pc + awaitRank s (s.call c).pc

/-- The stage of the call; then the requests in front of its own; then what the loop is doing. -/
noncomputable def remaining (c : CallId) (e : RequestId) (s : State) : ℕ ×ₗ ℕ ×ₗ ℕ :=
  toLex (stage s c e, toLex (s.inbox.length, Owner.loopRank s.owner))

theorem requestRank_le (pc : Owner.Pc) : requestRank pc ≤ 6 := by
  cases pc <;> decide

theorem awaitRank_le (s : State) (pc : Pc) : awaitRank s pc ≤ 6 := by
  unfold awaitRank
  split
  · exact requestRank_le _
  · exact requestRank_le _
  · exact Nat.zero_le _

theorem remaining_lt_of_stage {s t : State} {c : CallId} {e : RequestId}
    (less : stage t c e < stage s c e) : remaining c e t < remaining c e s :=
  Prod.Lex.toLex_lt_toLex.mpr (.inl less)

theorem remaining_lt_of_queue {s t : State} {c : CallId} {e : RequestId}
    (stays : stage t c e ≤ stage s c e) (less : t.inbox.length < s.inbox.length) :
    remaining c e t < remaining c e s := by
  rcases Nat.lt_or_eq_of_le stays with lower | same
  · exact remaining_lt_of_stage lower
  · exact Prod.Lex.toLex_lt_toLex.mpr (.inr ⟨same, Prod.Lex.toLex_lt_toLex.mpr (.inl less)⟩)

theorem remaining_lt_of_loop {s t : State} {c : CallId} {e : RequestId}
    (same : stage t c e = stage s c e) (queue : t.inbox = s.inbox)
    (less : Owner.loopRank t.owner < Owner.loopRank s.owner) :
    remaining c e t < remaining c e s := by
  refine Prod.Lex.toLex_lt_toLex.mpr (.inr ⟨same, Prod.Lex.toLex_lt_toLex.mpr (.inr ⟨?_, less⟩)⟩)
  rw [queue]

/-! ## Room in the map -/

/-- While there are fewer requests than IDs, a registration finds an ID. -/
theorem room_of_sent {s : State} (owner : Owner.machine.Reachable s.owner) (queued : Queued s)
    (few : s.sent ≤ 2 ^ 64) (b : RequestId) (running : (s.owner.request b).pc ≠ .idle)
    (allocates : ¬ (s.owner.request b).Registered) : ∃ id, s.owner.descriptors id = none := by
  by_contra full
  rw [not_exists] at full
  have clones := Owner.reachable_clones owner
  have bound : ∀ id, ∃ r, s.owner.descriptors id = some r :=
    fun id => Option.ne_none_iff_exists'.mp (full id)
  choose holder holds using bound
  have injective : Set.InjOn (fun n : Nat => holder (UInt64.ofNat n))
      (Finset.range (2 ^ 64) : Finset Nat) := by
    intro n small m small' same
    have held := holds (UInt64.ofNat m)
    simp only at same
    rw [← same] at held
    have ids := congrArg UInt64.toNat (clones.injective _ _ _ (holds (UInt64.ofNat n)) held)
    rw [UInt64.toNat_ofNat', UInt64.toNat_ofNat'] at ids
    rwa [Nat.mod_eq_of_lt (Finset.mem_range.mp small),
      Nat.mod_eq_of_lt (Finset.mem_range.mp small')] at ids
  have maps : Set.MapsTo (fun n : Nat => holder (UInt64.ofNat n))
      (Finset.range (2 ^ 64) : Finset Nat) ((Finset.range s.sent).erase b : Finset Nat) := by
    intro n _
    have registered := clones.registered _ _ (holds (UInt64.ofNat n))
    refine Finset.mem_erase.mpr ⟨?_, Finset.mem_range.mpr ?_⟩
    · intro same
      exact allocates (same ▸ registered)
    · by_contra above
      have idle := queued.fresh _ (Nat.not_lt.mp above)
      rcases registered.2 with past | past <;> rw [idle] at past <;> cases past
  have count := Finset.card_le_card_of_injOn _ maps injective
  have own : b ∈ Finset.range s.sent := by
    rw [Finset.mem_range]
    by_contra above
    exact running (queued.fresh b (Nat.not_lt.mp above))
  rw [Finset.card_range, Finset.card_erase_of_mem own, Finset.card_range] at count
  exact absurd (le_trans count (Nat.sub_le_sub_right few 1)) (by decide)

/-! ## One step closer -/

/-- The second attempt of the worker is over, and the call is not lost. -/
structure Settling (c : CallId) (e : RequestId) (params : LockParams) (outcome : Outcome)
    (s : State) : Prop where
  reached : machine.ReachableVia (fun _ a => Assumed a = true) s
  endpoint : (s.call c).endpoint = some e
  asked : (s.call c).params = params
  pending : ∃ id, (s.owner.request e).replies.head? = some (pendingReply id)
  settled : (s.owner.request e).second = some outcome
  budget : s.sent + (s.call c).pc.rank ≤ 2 ^ 64

/-- A good step that brings the call closer to its return. -/
def Closer (c : CallId) (e : RequestId) (params : LockParams) (outcome : Outcome) (s : State) :
    Prop :=
  ∃ a, Enabled s a ∧ Assumed a = true ∧ Settling c e params outcome (next s a) ∧
    remaining c e (next s a) < remaining c e s

section Closer
variable {c : CallId} {e : RequestId} {params : LockParams} {outcome : Outcome} {s : State}
  (inv : Settling c e params outcome s)
include inv

theorem Settling.stays {a : Action} (enabled : Enabled s a) (assumed : Assumed a = true)
    (budget : (next s a).sent + ((next s a).call c).pc.rank ≤ s.sent + (s.call c).pc.rank) :
    Settling c e params outcome (next s a) := by
  have owner := reachable_owner inv.reached
  obtain ⟨queued, linked⟩ := reachable_linked inv.reached
  obtain ⟨id, pending⟩ := inv.pending
  obtain ⟨endpoint, message⟩ := linked.keeps enabled inv.endpoint
  simp only [Call.message, Message.lockCommand.injEq] at message
  refine ⟨.step inv.reached enabled assumed, endpoint, message.2.2.trans inv.asked,
    ⟨id, ?_⟩, ?_, le_trans budget inv.budget⟩
  · rcases owner_step enabled with same | ⟨b, step, moves⟩
    · rw [same]
      exact pending
    · rw [moves]
      exact Owner.head_next step (Owner.reachable_idle owner e) pending
  · rcases owner_step enabled with same | ⟨b, step, moves⟩
    · rw [same]
      exact inv.settled
    · rw [moves]
      exact Owner.second_next step (Owner.reachable_attempts owner e) inv.settled

theorem Settling.late : (s.owner.request e).pc.Late := by
  apply (Owner.reachable_attempts (reachable_owner inv.reached) e).late
  simp [inv.settled]

/-- A step of the owner alone. -/
theorem Settling.owner_step {a : Owner.Action} (internal : Internal a = true)
    (assumed : Assumed (.owner a) = true) (step : Owner.Enabled s.owner a)
    (less : remaining c e (next s (.owner a)) < remaining c e s) : Closer c e params outcome s :=
  ⟨.owner a, ⟨internal, step⟩, assumed, inv.stays ⟨internal, step⟩ assumed le_rfl, less⟩

/-- The awaited request of a call is not its lock command. -/
theorem Settling.apart {x : RequestId}
    (awaits : (s.call c).pc = .awaitInterrupt x ∨ ∃ result, (s.call c).pc = .awaitRemove x result) :
    x ≠ e := by
  obtain ⟨_, linked⟩ := reachable_linked inv.reached
  have reader := (linked.lock c e inv.endpoint).1
  rintro rfl
  rcases awaits with place | ⟨result, place⟩
  · rw [(linked.interrupt c x place).1] at reader
    cases reader
  · rw [(linked.remove c x result place).1] at reader
    cases reader

theorem Settling.awaitRank_eq {t : State}
    (same : ∀ y, y ≠ e → t.owner.request y = s.owner.request y) :
    awaitRank t (s.call c).pc = awaitRank s (s.call c).pc := by
  cases place : (s.call c).pc with
  | awaitInterrupt x =>
      simp only [awaitRank]
      rw [same x (inv.apart (.inl place))]
  | awaitRemove x result =>
      simp only [awaitRank]
      rw [same x (inv.apart (.inr ⟨result, place⟩))]
  | _ => rfl

/-- The worker goes on to its end. -/
theorem Settling.worker (still : (s.owner.request e).pc ≠ .finished) : Closer c e params outcome s := by
  have late := inv.late
  have goes : ∀ a, Internal a = true → Assumed (.owner a) = true → Owner.Enabled s.owner a →
      a.actor = e → workerRank ((Owner.next s.owner a).request e).pc <
        workerRank (s.owner.request e).pc → Closer c e params outcome s := by
    intro a internal assumed step actor less
    refine inv.owner_step internal assumed step (remaining_lt_of_stage ?_)
    have others := inv.awaitRank_eq (t := next s (.owner a)) (fun y other =>
      Owner.request_next_of_ne s.owner (actor ▸ other))
    unfold stage
    change 100 * (s.call c).pc.rank + 10 * workerRank ((Owner.next s.owner a).request e).pc +
      awaitRank (next s (.owner a)) (s.call c).pc < _
    omega
  cases place : (s.owner.request e).pc with
  | replyLast =>
      exact goes (.replyLast e) rfl rfl place rfl (by simp [Owner.next, place, workerRank])
  | endCall => exact goes (.endCall e) rfl rfl place rfl (by simp [Owner.next, place, workerRank])
  | dropClone =>
      exact goes (.dropClone e) rfl rfl place rfl (by simp [Owner.next, place, workerRank])
  | untrack => exact goes (.untrack e) rfl rfl place rfl (by simp [Owner.next, place, workerRank])
  | markExited =>
      exact goes (.markExited e) rfl rfl place rfl (by simp [Owner.next, place, workerRank])
  | finished => exact (still place).elim
  | _ =>
      rw [place] at late
      exact late.elim

/-- The request the call waits for goes on to its answer. -/
theorem Settling.request {x : RequestId}
    (awaits : (s.call c).pc = .awaitInterrupt x ∨ ∃ result, (s.call c).pc = .awaitRemove x result)
    {a : Owner.Action} (internal : Internal a = true) (assumed : Assumed (.owner a) = true)
    (step : Owner.Enabled s.owner a) (actor : a.actor = x)
    (less : requestRank ((Owner.next s.owner a).request x).pc <
      requestRank (s.owner.request x).pc) : Closer c e params outcome s := by
  have apart := inv.apart awaits
  refine inv.owner_step internal assumed step (remaining_lt_of_stage ?_)
  have same : (Owner.next s.owner a).request e = s.owner.request e :=
    Owner.request_next_of_ne s.owner (actor ▸ apart.symm)
  have ranks : ∀ t : State, awaitRank t (s.call c).pc = requestRank (t.owner.request x).pc := by
    intro t
    rcases awaits with place | ⟨result, place⟩ <;> rw [place] <;> rfl
  unfold stage
  change 100 * (s.call c).pc.rank + 10 * workerRank ((Owner.next s.owner a).request e).pc +
    awaitRank (next s (.owner a)) (s.call c).pc < _
  rw [same, ranks, ranks]
  exact Nat.add_lt_add_left less _

/-- The owner comes to the request the call waits for. -/
theorem Settling.queue {x : RequestId}
    (awaits : (s.call c).pc = .awaitInterrupt x ∨ ∃ result, (s.call c).pc = .awaitRemove x result)
    (idle : (s.owner.request x).pc = .idle) : Closer c e params outcome s := by
  have owner := reachable_owner inv.reached
  obtain ⟨queued, linked⟩ := reachable_linked inv.reached
  have alive := (reachable_dialogue (fun _ _ => Assumed.calm) inv.reached).alive
  have late := inv.late
  by_cases receiving : s.owner.loop = .receiving
  · have below : x < s.sent := by
      rcases awaits with place | ⟨result, place⟩
      · exact (linked.interrupt c x place).2.bound queued
      · exact (linked.remove c x result place).2.bound queued
    obtain ⟨message, member⟩ := queued.known x below idle
    cases inbox : s.inbox with
    | nil =>
        rw [inbox] at member
        cases member
    | cons head rest =>
        obtain ⟨y, m⟩ := head
        have first : (s.owner.request y).pc = .idle :=
          queued.idle y m (by rw [inbox]; exact List.mem_cons_self)
        have enabled : Enabled s .deliver := ⟨y, m, rest, inbox, receiving, first⟩
        have after : next s .deliver =
            { s.setOwner (Owner.next s.owner (.recv y m)) with inbox := rest } := by
          simp [next, inbox]
        refine ⟨.deliver, enabled, rfl, inv.stays enabled rfl (by rw [after]; rfl), ?_⟩
        refine remaining_lt_of_queue ?_ ?_
        · have other : e ≠ y := by
            rintro rfl
            rw [first] at late
            exact late
          have same : (Owner.next s.owner (.recv y m)).request e = s.owner.request e :=
            Owner.request_next_of_ne s.owner other
          have before : awaitRank s (s.call c).pc = 6 := by
            rcases awaits with place | ⟨result, place⟩ <;> rw [place, awaitRank, idle] <;> rfl
          have bound := awaitRank_le (next s .deliver) (s.call c).pc
          unfold stage
          rw [before]
          rw [after] at bound ⊢
          change 100 * (s.call c).pc.rank +
            10 * workerRank ((Owner.next s.owner (.recv y m)).request e).pc + _ ≤ _
          rw [same]
          exact Nat.add_le_add_left bound _
        · rw [after, inbox]
          exact Nat.lt_succ_self _
  · have room : ∀ b, s.owner.loop = .busy b → (s.owner.request b).pc ≠ .reply →
        Owner.task (s.owner.request b).message = .register →
          ∃ id, s.owner.descriptors id = none := by
      intro b busy allocates _
      have onLoop := (Owner.reachable_served owner).busy b busy
      refine room_of_sent owner queued (le_trans (Nat.le_add_right _ _) inv.budget) b ?_ ?_
      · intro unreceived
        rw [unreceived] at onLoop
        exact onLoop
      · rintro ⟨_, answers | finished⟩
        · exact allocates answers
        · rw [finished] at onLoop
          exact onLoop
    obtain ⟨a, loops, step, less, quiet⟩ := Owner.loop_progress owner receiving alive room
    have internal : Internal a = true := by
      cases a <;> first | rfl | cases loops
    have assumed : Assumed (.owner a) = true := by
      cases a <;> first | rfl | cases loops
    refine inv.owner_step internal assumed step (remaining_lt_of_loop ?_ rfl less)
    have ranks : ∀ t : State, awaitRank t (s.call c).pc = requestRank (t.owner.request x).pc := by
      intro t
      rcases awaits with place | ⟨result, place⟩ <;> rw [place] <;> rfl
    unfold stage
    change 100 * (s.call c).pc.rank + 10 * workerRank ((Owner.next s.owner a).request e).pc +
      awaitRank (next s (.owner a)) (s.call c).pc = _
    rw [ranks, ranks, quiet e (.inr late)]
    change _ + requestRank ((Owner.next s.owner a).request x).pc = _
    rw [quiet x (.inl idle)]

omit inv in
/-- A call moves no handler. -/
theorem place_of_caller {a : Action} (enabled : Enabled s a) (own : caller s a = some c)
    (y : RequestId) : ((next s a).owner.request y).pc = (s.owner.request y).pc := by
  rcases owner_cases enabled with same | ⟨b, rfl, _⟩ | ⟨_, _, _, rfl, _⟩ | ⟨x, signal, _, _, moves⟩
  · rw [same]
  · cases own
  · cases own
  · rw [moves]
    by_cases reads : y = x
    · subst reads
      rcases Owner.fetch_cases s.owner y signal with same | ⟨_, _, _, same⟩ <;> rw [same]
    · rw [Owner.request_next_of_ne s.owner reads]

/-- The call itself takes a step. -/
theorem Settling.own {a : Action} (enabled : Enabled s a) (assumed : Assumed a = true)
    (own : caller s a = some c) (less : ((next s a).call c).pc.rank < (s.call c).pc.rank) :
    Closer c e params outcome s := by
  have budget : (next s a).sent + ((next s a).call c).pc.rank ≤ s.sent + (s.call c).pc.rank := by
    rcases posts_cases enabled with ⟨_, _, _, _, _, sent, _⟩ | ⟨_, sent, _⟩
    · rw [sent, Nat.add_right_comm]
      exact Nat.add_le_add_left less _
    · rw [sent]
      exact Nat.add_le_add_left less.le _
  refine ⟨a, enabled, assumed, inv.stays enabled assumed budget, remaining_lt_of_stage ?_⟩
  have bound := awaitRank_le (next s a) ((next s a).call c).pc
  unfold stage
  rw [place_of_caller enabled own e]
  omega

/-- What there is to read for the call. -/
theorem Settling.serving : Serving (s.call c) (s.owner.request e) := by
  have owner := reachable_owner inv.reached
  obtain ⟨queued, linked⟩ := reachable_linked inv.reached
  rcases System.serving owner queued linked inv.endpoint with idle | serving
  · have late := inv.late
    rw [idle] at late
    exact late.elim
  · exact serving

theorem Settling.heard : (s.call c).Heard (s.owner.request e) :=
  (reachable_dialogue (fun _ _ => Assumed.calm) inv.reached).heard c e inv.endpoint

/-- The call waits for its last reply. -/
theorem Settling.waiting (place : (s.call c).pc = .waiting) : Closer c e params outcome s := by
  have serving := inv.serving
  have heard := inv.heard
  simp only [Call.Heard, place] at heard
  obtain ⟨unread, pending⟩ := heard
  have locks : (Owner.task (s.owner.request e).message).Locks := serving.message ▸ (s.call c).locks
  obtain ⟨_, _, ⟨_, busy⟩ | ⟨last, answersLast, two⟩⟩ :=
    serving.transcript.pending pending serving.serves locks
  · apply inv.worker
    rcases busy with busy | busy | ⟨busy, _⟩ <;> rw [busy] <;> decide
  · have left : (s.owner.request e).replies.drop 1 = [last] := by
      rw [two]
      rfl
    have read := unread.nextReply_cons answersLast.terminal.hasKind left false
    have found : s.fetched .lockCommand e false = some (some (Reply.fetched last [])) := by
      simp [State.fetched, read]
    have enabled : Enabled s (.wait c false) :=
      ⟨place, by simp, e, inv.endpoint, by rw [found]; rfl⟩
    refine inv.own enabled rfl rfl ?_
    obtain ⟨result, _, same⟩ := gotNext_terminal (s.call c) answersLast.terminal
    simp [next, inv.endpoint, found, same, place, Pc.rank]

theorem Settling.first (place : (s.call c).pc = .first) : Closer c e params outcome s := by
  have serving := inv.serving
  have unread := inv.heard
  simp only [Call.Heard, place] at unread
  obtain ⟨id, pending⟩ := inv.pending
  obtain ⟨more, replies⟩ : ∃ more, (s.owner.request e).replies.drop 0 = pendingReply id :: more := by
    cases replies : (s.owner.request e).replies with
    | nil =>
        rw [replies] at pending
        cases pending
    | cons reply more =>
        rw [replies] at pending
        cases pending
        exact ⟨more, rfl⟩
  have read := unread.nextReply_cons (show Reply.HasKind .lockCommand (pendingReply id) from rfl)
    replies false
  have found : s.fetched .lockCommand e false = some (some (Reply.fetched (pendingReply id) [])) := by
    simp [State.fetched, read]
  have enabled : Enabled s (.firstReply c) := ⟨place, e, inv.endpoint, by rw [found]; rfl⟩
  refine inv.own enabled rfl rfl ?_
  have less : (gotFirst (s.call c) (some (Reply.fetched (pendingReply id) []))).pc.rank < 6 := by
    rcases gotFirst_cases (s.call c) (some (Reply.fetched (pendingReply id) [])) with
      ⟨_, same⟩ | ⟨_, _, same⟩ <;> simp [same, Pc.rank]
  simpa [next, inv.endpoint, found, place, Pc.rank] using less

/-- The answer to a request with one reply is there when its handler is done. -/
theorem Settling.answer {x : RequestId} (unread : (s.owner.request x).Unread 0)
    (once : Owner.task (s.owner.request x).message ≠ .setLockBlocking)
    (finished : (s.owner.request x).pc = .finished) (out : (s.owner.request x).out = .ok .unit) :
    s.fetched .unit x false = some (some (Reply.fetched (.ok .unit) [])) := by
  have owner := reachable_owner inv.reached
  have alive := (reachable_dialogue (fun _ _ => Assumed.calm) inv.reached).alive
  have answered := ((Owner.reachable_served owner).answered x once finished).resolve_right alive
  have left : (s.owner.request x).replies.drop 0 = [.ok .unit] := by
    rw [answered, out]
    rfl
  have read := unread.nextReply_cons (show Reply.HasKind .unit (.ok .unit) from rfl) left false
  simp [State.fetched, read]

theorem Settling.awaitInterrupt {x : RequestId} (place : (s.call c).pc = .awaitInterrupt x) :
    Closer c e params outcome s := by
  have owner := reachable_owner inv.reached
  obtain ⟨queued, linked⟩ := reachable_linked inv.reached
  have dialogue := reachable_dialogue (fun _ _ => Assumed.calm) inv.reached
  obtain ⟨unread, where_⟩ := dialogue.interrupt c x e place inv.endpoint
  obtain ⟨reader, carries⟩ := linked.interrupt c x place
  have message : (s.owner.request x).pc ≠ .idle →
      (s.owner.request x).message = .interrupt (s.call c).interruptId := carries.received queued
  have entry := dialogue.entry owner queued linked inv.endpoint (by rw [place]; trivial)
    (by rintro (⟨_, returned⟩ | ⟨_, _, removes, _⟩) <;> simp_all)
  rcases where_ with idle | starts | looks | ⟨stops, target⟩ | ⟨answers | finished, out⟩
  · exact inv.queue (.inl place) idle
  · refine inv.request (.inl place) (a := .startThread x) rfl rfl starts rfl ?_
    simp [Owner.next, starts, message (by rw [starts]; decide), Owner.task,
      Owner.Task.threadHandler, requestRank]
  · refine inv.request (.inl place) (a := .interruptLookup x) rfl rfl looks rfl ?_
    have found : s.owner.interrupts (s.owner.request x).message.id = some e := by
      rw [message (by rw [looks]; decide)]
      exact entry
    simp [Owner.next, found, looks, requestRank]
  · -- the handler waits for the end of the worker
    by_cases exited : (s.owner.request e).exited = true
    · refine inv.request (.inl place) (a := .interruptStop x) rfl rfl
        ⟨stops, by rw [target]; exact exited⟩ rfl ?_
      simp [Owner.next, stops, requestRank]
    · apply inv.worker
      intro finished
      refine exited ((Owner.reachable_attempts owner e).exited ?_ finished)
      simp [inv.settled]
  · refine inv.request (.inl place) (a := .reply x) rfl rfl answers rfl ?_
    simp [Owner.next, answers, requestRank]
  · have found := inv.answer unread (carries.once owner queued (by simp [Owner.task])) finished out
    have enabled : Enabled s (.interruptReply c) := ⟨x, place, by rw [found]; rfl⟩
    refine inv.own enabled rfl rfl ?_
    simp [next, place, found, gotInterrupt, Reply.fetched, Pc.rank]

theorem Settling.awaitRemove {x : RequestId} {result : Returned}
    (place : (s.call c).pc = .awaitRemove x result) : Closer c e params outcome s := by
  have owner := reachable_owner inv.reached
  obtain ⟨queued, linked⟩ := reachable_linked inv.reached
  have dialogue := reachable_dialogue (fun _ _ => Assumed.calm) inv.reached
  obtain ⟨unread, where_⟩ := dialogue.remove c x result place
  obtain ⟨reader, carries⟩ := linked.remove c x result place
  rcases where_ with idle | handles | ⟨answers | finished, out⟩
  · exact inv.queue (.inr ⟨result, place⟩) idle
  · refine inv.request (.inr ⟨result, place⟩) (a := .removeInterrupt x) rfl rfl handles rfl ?_
    simp only [Owner.next]
    split <;> simp [handles, requestRank]
  · refine inv.request (.inr ⟨result, place⟩) (a := .reply x) rfl rfl answers rfl ?_
    simp [Owner.next, answers, requestRank]
  · have found := inv.answer unread (carries.once owner queued (by simp [Owner.task])) finished out
    have enabled : Enabled s (.removeReply c) := ⟨x, result, place, by rw [found]; rfl⟩
    refine inv.own enabled rfl rfl ?_
    simp [next, place, Pc.rank]

theorem Settling.closer : (∃ result, (s.call c).pc = .returned result) ∨ Closer c e params outcome s := by
  obtain ⟨queued, linked⟩ := reachable_linked inv.reached
  cases place : (s.call c).pc with
  | idle => exact (linked.started c e inv.endpoint place).elim
  | first => exact .inr (inv.first place)
  | waiting => exact .inr (inv.waiting place)
  | sendInterrupt =>
      have enabled : Enabled s (.sendInterrupt c) := place
      exact .inr (inv.own enabled rfl rfl (by simp [next, place, Pc.rank]))
  | awaitInterrupt x => exact .inr (inv.awaitInterrupt place)
  | sendRemove result =>
      have enabled : Enabled s (.sendRemove c) := ⟨result, place⟩
      exact .inr (inv.own enabled rfl rfl (by simp [next, place, Pc.rank]))
  | awaitRemove x result => exact .inr (inv.awaitRemove place)
  | returned result => exact .inl ⟨result, rfl⟩

/-- A call whose worker has made its second attempt returns. -/
theorem Settling.returns :
    ∃ t, (machine.after s).ReachableVia (fun _ a => Assumed a = true) t ∧
      Settling c e params outcome t ∧ ∃ result, (t.call c).pc = .returned result :=
  Transition.Machine.exists_reachableVia_of_measure (remaining c e) (fun _ inv => inv.closer) s inv

end Closer

end Ulockmgr.System
