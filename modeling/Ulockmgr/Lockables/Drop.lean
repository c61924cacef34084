import Ulockmgr.Lockables.Custody

/-!
# What is left of a `Lockable`

As long as nothing was sent for it, a `Lockable` has its entry in the map of the owner.  A
`drop` that gets its answer leaves nothing behind.  A `drop` that is interrupted does not wait
for the `Unregister` thread, and one that could not send its request leaves the entry for good.
-/

namespace Ulockmgr.Lockables

open Owner (RequestId Request task)

/-- What the owner has of the `Lockable` `r`. -/
structure Released (s : State) (r : RequestId) : Prop where
  /-- The descriptor is closed. -/
  dropped : (s.owner.data r).holders = ∅
  unused : ∀ a, Owner.Enabled s.owner a → ¬ a.Uses s.owner r
  unlisted : ∀ id, s.owner.descriptors id ≠ some r

/-- The `drop` of a `Lockable`, by the way it has gone. -/
def Accounted (s : State) (r : RequestId) : Prop :=
  match (s.lockable r).pc with
  | .absent => True
  | .held | .dropped .unsent => s.owner.descriptors (s.lockable r).id = some r
  | .awaiting e | .dropped (.interrupted e) =>
      s.owner.descriptors (s.lockable r).id = some r ∨
        (s.owner.request e).Took ∧ (s.owner.request e).data = r
  | .dropped (.replied _) => s.owner.loop = .ended ∨ Released s r

theorem Custody.kept {s : State} (inv : Custody s) {r : RequestId}
    (held : (s.lockable r).pc ≠ .absent) (unsent : (s.lockable r).pc.request = none) :
    s.owner.descriptors (s.lockable r).id = some r := by
  rcases inv.entry r _ (inv.named r held) with bound | ⟨e, sent, _⟩
  · exact bound
  · rw [(inv.drops e r).mp sent] at unsent
    cases unsent

theorem Custody.keptOrTaken {s : State} (inv : Custody s) {r e : RequestId}
    (held : (s.lockable r).pc ≠ .absent) (sent : (s.lockable r).pc.request = some e) :
    s.owner.descriptors (s.lockable r).id = some r ∨
      (s.owner.request e).Took ∧ (s.owner.request e).data = r := by
  rcases inv.entry r _ (inv.named r held) with bound | ⟨e', other, took⟩
  · exact .inl bound
  · have same := (inv.drops e' r).mp other
    rw [sent] at same
    cases same
    exact .inr ⟨took, inv.taken e r other took⟩

theorem Custody.released {s : State} (inv : Custody s) {r e : RequestId}
    (replied : (s.lockable r).pc = .dropped (.replied e)) (alive : s.owner.loop ≠ .ended) :
    Released s r := by
  obtain ⟨served, clones, last⟩ := Owner.reachable_lastHolder inv.owner
  have finished := inv.replied r e replied
  have sent : s.drops e = some r := (inv.drops e r).mpr (by rw [replied]; rfl)
  have unregister : task (s.owner.request e).message = .unregister := by
    rcases inv.carries e r sent with idle | message
    · rw [finished] at idle
      cases idle
    · rw [message]
      rfl
  have found : (s.owner.request e).found = some true := by
    have looked := (Owner.reachable_looked inv.owner e unregister (.inr finished)).resolve_right alive
    cases known : (s.owner.request e).found with
    | none => exact (looked known).elim
    | some hit =>
        cases hit with
        | true => rfl
        | false => exact (inv.present e unregister known).elim
  have took : (s.owner.request e).Took := ⟨unregister, found⟩
  have data := inv.taken e r sent took
  have dropped : (s.owner.data r).holders = ∅ := by
    have empty := last.dropped e took (.inr finished)
    rw [Owner.State.dataOf, data] at empty
    exact empty
  exact
    { dropped := dropped
      unused := fun a enabled uses => Owner.held_of_uses served clones enabled uses dropped
      unlisted := fun id => data ▸ clones.taken e took id }

/-- The registration of a `Lockable` is held until its `Unregister` thread is done. -/
theorem Custody.holders {s : State} (inv : Custody s) {r e : RequestId}
    (awaits : (s.lockable r).pc = .awaiting e) (early : (s.owner.request e).pc ≠ .reply)
    (open_ : (s.owner.request e).pc ≠ .finished) : (s.owner.data r).holders ≠ ∅ := by
  have clones := Owner.reachable_clones inv.owner
  have served := Owner.reachable_served inv.owner
  have held : (s.lockable r).pc ≠ .absent := by simp [awaits]
  rcases inv.keptOrTaken held (by rw [awaits]; rfl) with bound | ⟨took, rfl⟩
  · exact Finset.ne_empty_of_mem (clones.map _ r bound)
  · have holds : (s.owner.request e).pc.UnregisterHolds := by
      have before := served.early e
      have serves := served.serves e
      rw [took.1, took.2] at *
      cases place : (s.owner.request e).pc <;> simp_all [Owner.Pc.Early, Owner.Pc.Serves, Owner.Pc.UnregisterHolds]
    exact Finset.ne_empty_of_mem (clones.unregister e holds)

/-- Before the owner has answered, a signal is all it takes for `drop` to return; the descriptor
stays open then unless the `Unregister` thread was about to answer. -/
theorem drop_interrupted {s : State} (reached : machine.Reachable s) {r e : RequestId}
    (awaits : (s.lockable r).pc = .awaiting e) (unanswered : (s.owner.request e).pc ≠ .finished) :
    Enabled s (.reply r true) ∧
      ((next s (.reply r true)).lockable r).pc = .dropped (.interrupted e) ∧
        ((s.owner.request e).pc ≠ .reply →
          ((next s (.reply r true)).owner.data r).holders ≠ ∅) := by
  have inv := reachable_custody reached
  have sent : s.drops e = some r := (inv.drops e r).mpr (by rw [awaits]; rfl)
  obtain ⟨rest, returned⟩ := inv.interrupted sent unanswered
  have answer : s.answer r true = some (e, some (.error (.os Errno.INTR))) := by
    simp [State.answer, awaits, returned]
  refine ⟨by simp [Enabled, answer], by simp [next, answer, outcome], ?_⟩
  intro early
  have same : (next s (.reply r true)).owner.data r = s.owner.data r := by
    simp only [next, answer, Owner.next]
    split <;> rfl
  rw [same]
  exact inv.holders awaits early unanswered

theorem drop_interrupted_waiting :
    ∃ s, machine.Reachable s ∧ (s.lockable 0).pc = .awaiting 1 ∧
      (s.owner.request 1).pc = .trackerWait ∧
      Enabled s (.reply 0 true) ∧
      ((next s (.reply 0 true)).lockable 0).pc = .dropped (.interrupted 1) ∧
      ((s.owner.request 1).pc ≠ .reply →
        ((next s (.reply 0 true)).owner.data 0).holders ≠ ∅) := by
  have found : ∃ s, machine.Reachable s ∧ (s.lockable 0).pc = .awaiting 1 ∧
      (s.owner.request 1).pc = .trackerWait :=
    Transition.Machine.exists_reachable_of_exec
      [.owner (.recv 0 (.register (.file 7))), .owner (.acquireExit 0), .owner (.trackerNew 0),
        .owner (.fetchId 0), .owner (.insertId 0), .owner (.reply 0), .register 0, .send 0 1,
        .deliver 1, .owner (.startThread 1), .owner (.mapRemove 1), .owner (.trackerStop 1)]
      rfl (by decide +kernel)
  obtain ⟨s, reached, awaits, place⟩ := found
  exact ⟨s, reached, awaits, place, drop_interrupted reached awaits (by rw [place]; decide)⟩

end Ulockmgr.Lockables
