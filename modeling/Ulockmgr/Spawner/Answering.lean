import Ulockmgr.Spawner

/-!
# Answers of the coordinator

A request whose spawn succeeds is answered with the descriptor of the new owner.  The first spawn
that fails ends the coordinator without an answer: that request, those behind it and
all later ones come to nothing.
-/

namespace Ulockmgr.Spawner

open Wire (Bytes Stream Segment)
open Receiving (Left atEnd)

/-- The requests in a row, each with the next endpoint. -/
def frames : Nat → List Duration → List (Segment Fd)
  | _, [] => []
  | e, ttl :: rest => spawnSegment e ttl :: frames (e + 1) rest

/-- The reply that a request is to get. -/
def expected (outcome : SpawnOutcome) : Reply × List Fd :=
  match spawnOwnerProcess outcome with
  | .ok parentFd => (.ok .unit, [parentFd])
  | .error error => (.error error.toErrno, [])

/-- Every request gets exactly the reply it is to get, and the coordinator stops only at the end
of the stream. -/
def AnswersAll (requests : List Duration) (outcome : Nat → SpawnOutcome) (closed : Bool) : Prop :=
  ∃ fuel sockets,
    run fuel outcome ⟨frames 0 requests, closed⟩ (fun _ => Stream.empty) =
      some (atEnd closed sockets) ∧
    ∀ i < requests.length, sockets i = ⟨[replySegment (expected (outcome i))], true⟩

/-! ## One turn -/

section
variable (e : Nat) (ttl : Duration) (rest : List (Segment Fd)) (closed : Bool) (sockets : Sockets)

theorem turn_spawned (p : Process) :
    turn (.spawned p) ⟨spawnSegment e ttl :: rest, closed⟩ sockets =
      .serves (answer sockets (.endpoint e) fun stream => replyWithFds stream (.ok .unit) [.owner p])
        ⟨rest, closed⟩ := by
  simp [turn, receiveSpawnRequest_segment, spawnOwnerProcess]

theorem turn_failed {outcome : SpawnOutcome} (fails : ¬ outcome.Succeeds) :
    ∃ error, turn outcome ⟨spawnSegment e ttl :: rest, closed⟩ sockets =
      .returns (.error error) (answer sockets (.endpoint e) id) := by
  cases outcome with
  | spawned p => exact (fails ⟨p, rfl⟩).elim
  | _ => exact ⟨_, by simp [turn, receiveSpawnRequest_segment, spawnOwnerProcess]; rfl⟩

end

theorem turn_nil (outcome : SpawnOutcome) (closed : Bool) (sockets : Sockets) :
    turn outcome ⟨[], closed⟩ sockets =
      if closed = true then .returns (.ok ()) sockets else .waits := by
  cases closed <;> rfl

/-! ## The whole stream -/

theorem answer_spawned (e : Nat) (p : Process) (sockets : Sockets)
    (fresh : sockets e = Stream.empty) :
    answer sockets (.endpoint e) (fun stream => replyWithFds stream (.ok .unit) [.owner p]) =
      Function.update sockets e ⟨[replySegment (expected (.spawned p))], true⟩ := by
  have few : [Fd.owner p].length ≤ scmMaxFd := by simp [scmMaxFd]
  simp only [answer, fresh, replyWithFds_eq _ few]
  rfl

/-- As long as no spawn fails, every request is answered. -/
theorem run_spawned (closed : Bool) {requests : List Duration} {outcome : Nat → SpawnOutcome}
    (succeed : ∀ i < requests.length, (outcome i).Succeeds) {e : Nat} {sockets : Sockets}
    (fresh : ∀ i, e ≤ i → sockets i = Stream.empty) :
    ∃ final, run (requests.length + 1) outcome ⟨frames e requests, closed⟩ sockets =
        some (atEnd closed final) ∧
      (∀ i < e, final i = sockets i) ∧
      ∀ i < requests.length, final (e + i) = ⟨[replySegment (expected (outcome i))], true⟩ := by
  induction requests generalizing outcome e sockets with
  | nil =>
      refine ⟨sockets, ?_, fun _ _ => rfl, fun i low => absurd low (Nat.not_lt_zero i)⟩
      rw [run, frames, turn_nil]
      cases closed <;> rfl
  | cons ttl rest ih =>
      obtain ⟨p, spawned⟩ := succeed 0 (Nat.succ_pos _)
      have fresh' : ∀ i, e + 1 ≤ i → Function.update sockets e
          ⟨[replySegment (expected (.spawned p))], true⟩ i = Stream.empty := by
        intro i above
        rw [Function.update_of_ne (by omega), fresh i (by omega)]
      obtain ⟨final, ran, before, replies⟩ :=
        ih (fun i low => succeed (i + 1) (Nat.succ_lt_succ low)) fresh'
      refine ⟨final, ?_, fun i low => ?_, fun i low => ?_⟩
      · rw [List.length_cons, run, frames, spawned, turn_spawned, answer_spawned e p sockets
          (fresh e le_rfl)]
        exact ran
      · rw [before i (by omega), Function.update_of_ne (by omega)]
      · cases i with
        | zero =>
            rw [Nat.add_zero, before e (Nat.lt_succ_self e), Function.update_self, spawned]
        | succ i =>
            rw [← replies i (Nat.lt_of_succ_lt_succ low)]
            congr 1
            omega

theorem succeeds_of_run (closed : Bool) {fuel : Nat} {requests : List Duration}
    {outcome : Nat → SpawnOutcome} {e : Nat} {sockets final : Sockets}
    (ran : run fuel outcome ⟨frames e requests, closed⟩ sockets = some (atEnd closed final)) :
    ∀ i < requests.length, (outcome i).Succeeds := by
  induction requests generalizing fuel outcome e sockets with
  | nil =>
      intro i low
      cases low
  | cons ttl rest ih =>
      cases fuel with
      | zero => cases ran
      | succ fuel =>
          by_cases first : (outcome 0).Succeeds
          · obtain ⟨p, spawned⟩ := first
            rw [run, frames, spawned, turn_spawned] at ran
            intro i low
            cases i with
            | zero => exact ⟨p, spawned⟩
            | succ i => exact ih ran i (Nat.lt_of_succ_lt_succ low)
          · obtain ⟨error, fails⟩ := turn_failed e ttl (frames (e + 1) rest) closed sockets first
            rw [run, frames, fails] at ran
            cases closed <;> simp [atEnd] at ran

theorem answersAll_iff (requests : List Duration) (outcome : Nat → SpawnOutcome) (closed : Bool) :
    AnswersAll requests outcome closed ↔ ∀ i < requests.length, (outcome i).Succeeds := by
  constructor
  · rintro ⟨fuel, sockets, ran, -⟩
    exact succeeds_of_run closed ran
  · intro succeed
    have fresh : ∀ i, 0 ≤ i → (fun _ => Stream.empty : Sockets) i = Stream.empty := fun _ _ => rfl
    obtain ⟨final, ran, -, replies⟩ := run_spawned closed succeed fresh
    exact ⟨_, final, ran, fun i low => by simpa using replies i low⟩

/-! ## The calls of the manager -/

/-- What the calls of `get_or_create_owner` share: the map of owners, each named by its socket,
and the coordinator with the spawns it has made. -/
structure Session where
  owners : UInt64 → Option Fd
  running : Bool
  spawns : List SpawnOutcome

namespace Session

def initial : Session := ⟨fun _ => none, true, []⟩

def setOwner (s : Session) (id : UInt64) (owner : Option Fd) : Session :=
  { s with owners := Function.update s.owners id owner }

end Session

/-- The end of `send_request_with_fds`; `none` while there is no reply. -/
def fetchSpawnReply (oneshot : Stream Fd) : Option Fetched :=
  match nextReply .unit oneshot false with
  | .returns (some result) _ => some result
  | .returns none _ =>
      some (.error (.custom .brokenPipe "send_request_with_fds: connection is closed"))
  | _ => none

/-- `send_request_with_fds(comm_guard, RequestSpawnOwner::new(ttl))`: with the coordinator gone
the send fails, else it takes one turn of the coordinator. -/
def sendSpawnRequest (s : Session) (ttl : Duration) (outcome : SpawnOutcome) :
    Option Fetched × Session :=
  if s.running = false then (some (.error (.os Errno.PIPE)), s)
  else
    match turn outcome ⟨[spawnSegment 0 ttl], false⟩ fun _ => Stream.empty with
    | .serves sockets _ =>
        (fetchSpawnReply (sockets 0), { s with spawns := outcome :: s.spawns })
    | .returns _ sockets =>
        (fetchSpawnReply (sockets 0), { s with running := false, spawns := outcome :: s.spawns })
    | _ => (none, s)

/-- The end of the closure of `or_try_insert_with`. -/
def ownerOf (fetched : Fetched) : Except IoError Fd :=
  match fetched with
  | .error error | .ok (.error error) => .error error
  | .ok (.ok (_, [owner])) => .ok owner
  | .ok (.ok _) => .error (.ofMessage "expected 1 owner FD")

section
variable (answers : Fd → Bool) (id : UInt64) (ttl : Duration)

/-- The loop of `get_or_create_owner` from a vacant entry on; the list has the outcomes of the
spawns that the call asks for, and `none` is a call that has not returned. -/
def createOwner : List SpawnOutcome → Session → Option (Except IoError Fd) × Session
  | [], s => (none, s)
  | outcome :: later, s =>
      match sendSpawnRequest s ttl outcome with
      | (none, s) => (none, s)
      | (some fetched, s) =>
          match ownerOf fetched with
          | .error error => (some (.error error), s)
          | .ok owner =>
              if ttl = Duration.zero ∨ answers owner = true then
                (some (.ok owner), s.setOwner id (some owner))
              else createOwner later (s.setOwner id none)

/-- `get_or_create_owner`; `answers` tells which owners answer a ping. -/
def getOrCreateOwner (outcomes : List SpawnOutcome) (s : Session) :
    Option (Except IoError Fd) × Session :=
  match s.owners id with
  | some owner =>
      if answers owner = true then (some (.ok owner), s)
      else createOwner answers id ttl outcomes (s.setOwner id none)
  | none => createOwner answers id ttl outcomes s

end

theorem sendSpawnRequest_stopped {s : Session} (stopped : s.running = false) (ttl : Duration)
    (outcome : SpawnOutcome) :
    sendSpawnRequest s ttl outcome = (some (.error (.os Errno.PIPE)), s) := by
  simp [sendSpawnRequest, stopped]

theorem sendSpawnRequest_spawned {s : Session} (running : s.running = true) (ttl : Duration)
    (p : Process) :
    sendSpawnRequest s ttl (.spawned p) =
      (some (.ok (.ok (.unit, [.owner p]))), { s with spawns := .spawned p :: s.spawns }) := by
  have reply : nextReply .unit ⟨[replySegment (.ok .unit, [.owner p])], true⟩ false =
      .returns (some (.ok (.ok (.unit, [.owner p])))) ⟨[], true⟩ :=
    nextReply_segment (show Reply.HasKind .unit (.ok .unit) from rfl) (by simp [scmMaxFd]) [] true
      false
  simp only [sendSpawnRequest, running, turn_spawned, answer_spawned 0 p (fun _ => Stream.empty) rfl,
    Function.update_self, fetchSpawnReply, expected, spawnOwnerProcess, reply]
  rfl

theorem sendSpawnRequest_failed {s : Session} (running : s.running = true) (ttl : Duration)
    {outcome : SpawnOutcome} (fails : ¬ outcome.Succeeds) :
    sendSpawnRequest s ttl outcome =
      (some (.error (.custom .brokenPipe "send_request_with_fds: connection is closed")),
        { s with running := false, spawns := outcome :: s.spawns }) := by
  obtain ⟨error, stops⟩ := turn_failed 0 ttl [] false (fun _ => Stream.empty) fails
  simp only [sendSpawnRequest, running, stops]
  rfl

section
variable (answers : Fd → Bool) (id : UInt64) (ttl : Duration) (later : List SpawnOutcome)
  {s : Session}

theorem createOwner_stopped (stopped : s.running = false) (outcome : SpawnOutcome) :
    createOwner answers id ttl (outcome :: later) s = (some (.error (.os Errno.PIPE)), s) := by
  simp only [createOwner, sendSpawnRequest_stopped stopped, ownerOf]

theorem createOwner_failed (running : s.running = true) {outcome : SpawnOutcome}
    (fails : ¬ outcome.Succeeds) :
    ∃ error, createOwner answers id ttl (outcome :: later) s =
      (some (.error error), { s with running := false, spawns := outcome :: s.spawns }) := by
  simp only [createOwner, sendSpawnRequest_failed running ttl fails, ownerOf]
  exact ⟨_, rfl⟩

theorem createOwner_spawned (running : s.running = true) (p : Process) :
    createOwner answers id ttl (.spawned p :: later) s =
      if ttl = Duration.zero ∨ answers (.owner p) = true then
        (some (.ok (.owner p)),
          { s with spawns := .spawned p :: s.spawns }.setOwner id (some (.owner p)))
      else createOwner answers id ttl later
        ({ s with spawns := .spawned p :: s.spawns }.setOwner id none) := by
  simp only [createOwner, sendSpawnRequest_spawned running, ownerOf]

/-- A failed call leaves no entry. -/
theorem createOwner_vacant {outcomes : List SpawnOutcome} (vacant : s.owners id = none)
    {error : IoError} (fails : (createOwner answers id ttl outcomes s).1 = some (.error error)) :
    (createOwner answers id ttl outcomes s).2.owners id = none := by
  induction outcomes generalizing s with
  | nil => cases fails
  | cons outcome later ih =>
      cases running : s.running with
      | false =>
          rw [createOwner_stopped answers id ttl later running]
          exact vacant
      | true =>
          by_cases succeeds : outcome.Succeeds
          · obtain ⟨p, rfl⟩ := succeeds
            rw [createOwner_spawned answers id ttl later running] at fails ⊢
            split at fails
            · cases fails
            · next again =>
                rw [if_neg again]
                exact ih (by simp [Session.setOwner]) fails
          · obtain ⟨error', stops⟩ := createOwner_failed answers id ttl later running succeeds
            rw [stops]
            exact vacant

/-- The coordinator runs as long as no spawn has failed, and then leaves some ID without
an owner. -/
structure Session.Steady (s : Session) : Prop where
  running : s.running = true ↔ ∀ outcome ∈ s.spawns, outcome.Succeeds
  vacant : s.running = true ∨ ∃ id, s.owners id = none

theorem Session.Steady.spawned (steady : s.Steady) (running : s.running = true) (p : Process)
    (owner : Option Fd) :
    ({ s with spawns := .spawned p :: s.spawns }.setOwner id owner).Steady where
  running := by
    have all := steady.running.mp running
    simp only [setOwner, running, List.forall_mem_cons, true_iff]
    exact ⟨⟨p, rfl⟩, all⟩
  vacant := .inl running

theorem createOwner_steady {outcomes : List SpawnOutcome} (steady : s.Steady)
    (vacant : s.owners id = none) : (createOwner answers id ttl outcomes s).2.Steady := by
  induction outcomes generalizing s with
  | nil => exact steady
  | cons outcome later ih =>
      cases running : s.running with
      | false =>
          rw [createOwner_stopped answers id ttl later running]
          exact steady
      | true =>
          by_cases succeeds : outcome.Succeeds
          · obtain ⟨p, rfl⟩ := succeeds
            rw [createOwner_spawned answers id ttl later running]
            split
            · exact steady.spawned id running p _
            · exact ih (steady.spawned id running p none) (by simp [Session.setOwner])
          · obtain ⟨error, stops⟩ := createOwner_failed answers id ttl later running succeeds
            rw [stops]
            exact ⟨by simp [succeeds], .inr ⟨id, vacant⟩⟩

/-- The ID has no owner that answers. -/
def Session.Dead (s : Session) (id : UInt64) : Prop :=
  ∀ owner, s.owners id = some owner → answers owner = false

variable {id} in
theorem getOrCreateOwner_dead (dead : s.Dead answers id) (outcomes : List SpawnOutcome) :
    getOrCreateOwner answers id ttl outcomes s =
      createOwner answers id ttl outcomes (s.setOwner id none) := by
  unfold getOrCreateOwner
  cases found : s.owners id with
  | none =>
      have same : Function.update s.owners id none = s.owners :=
        Function.update_eq_self_iff.mpr found.symm
      simp only [Session.setOwner, same]
  | some owner => simp [dead owner found]

variable {id} in
theorem getOrCreateOwner_live (live : ¬ s.Dead answers id) (outcomes : List SpawnOutcome) :
    ∃ owner, getOrCreateOwner answers id ttl outcomes s = (some (.ok owner), s) := by
  unfold Session.Dead at live
  push Not at live
  obtain ⟨owner, found, pings⟩ := live
  exact ⟨owner, by simp [getOrCreateOwner, found, pings]⟩

end

/-- One call of `get_or_create_owner` with the outcomes of its spawns. -/
structure Call where
  ownerId : UInt64
  ttl : Duration
  outcomes : List SpawnOutcome

def Session.after (answers : Fd → Bool) (history : List Call) : Session :=
  history.foldl
    (fun s call => (getOrCreateOwner answers call.ownerId call.ttl call.outcomes s).2) .initial

/-- Every call whose own spawn succeeds, with a process that answers, gets its owner. -/
def Session.Serves (answers : Fd → Bool) (s : Session) : Prop :=
  ∀ id ttl p later, s.Dead answers id → (ttl = Duration.zero ∨ answers (.owner p) = true) →
    (getOrCreateOwner answers id ttl (.spawned p :: later) s).1 = some (.ok (.owner p))

theorem setOwner_steady {s : Session} (steady : s.Steady) (id : UInt64) :
    (s.setOwner id none).Steady where
  running := steady.running
  vacant := .inr ⟨id, by simp [Session.setOwner]⟩

theorem after_steady (answers : Fd → Bool) (history : List Call) :
    (Session.after answers history).Steady := by
  unfold Session.after
  have starts : Session.initial.Steady := ⟨by simp [Session.initial], .inl rfl⟩
  generalize Session.initial = s at starts
  induction history generalizing s with
  | nil => exact starts
  | cons call rest ih =>
      refine ih _ ?_
      show (getOrCreateOwner answers call.ownerId call.ttl call.outcomes s).2.Steady
      by_cases dead : s.Dead answers call.ownerId
      · rw [getOrCreateOwner_dead answers call.ttl dead]
        exact createOwner_steady answers _ _ (setOwner_steady starts _) (by simp [Session.setOwner])
      · obtain ⟨owner, found⟩ := getOrCreateOwner_live answers call.ttl dead call.outcomes
        rw [found]
        exact starts

theorem serves_iff {answers : Fd → Bool} {s : Session} (steady : s.Steady) :
    s.Serves answers ↔ ∀ outcome ∈ s.spawns, outcome.Succeeds := by
  rw [← steady.running]
  constructor
  · intro serves
    by_contra stopped
    rw [Bool.not_eq_true] at stopped
    obtain running | ⟨id, vacant⟩ := steady.vacant
    · rw [running] at stopped
      cases stopped
    · have dead : s.Dead answers id := fun owner found => by
        rw [vacant] at found
        cases found
      have served := serves id Duration.zero 0 [] dead (.inl rfl)
      rw [getOrCreateOwner_dead answers Duration.zero dead, createOwner_stopped answers id
        Duration.zero [] (s := s.setOwner id none) stopped] at served
      cases served
  · intro running id ttl p later dead pings
    rw [getOrCreateOwner_dead answers ttl dead,
      createOwner_spawned answers id ttl later (s := s.setOwner id none) running, if_pos pings]

/-- The coordinator answers every request and outlives it, and every later call is served, exactly
as long as no spawn fails.  A failed call leaves no entry in any case. -/
theorem coordinator_answers_iff (requests : List Duration) (outcome : Nat → SpawnOutcome)
    (closed : Bool) (answers : Fd → Bool) (history : List Call) :
    (AnswersAll requests outcome closed ↔ ∀ i < requests.length, (outcome i).Succeeds) ∧
      ((Session.after answers history).Serves answers ↔
        ∀ outcome ∈ (Session.after answers history).spawns, outcome.Succeeds) ∧
      ∀ id ttl outcomes error,
        (getOrCreateOwner answers id ttl outcomes (Session.after answers history)).1 =
          some (.error error) →
        (getOrCreateOwner answers id ttl outcomes (Session.after answers history)).2.owners id =
          none := by
  refine ⟨answersAll_iff requests outcome closed, serves_iff (after_steady answers history), ?_⟩
  intro id ttl outcomes error fails
  by_cases dead : (Session.after answers history).Dead answers id
  · rw [getOrCreateOwner_dead answers ttl dead] at fails ⊢
    exact createOwner_vacant answers id ttl (by simp [Session.setOwner]) fails
  · obtain ⟨owner, found⟩ := getOrCreateOwner_live answers ttl dead outcomes
    rw [found] at fails
    cases fails

/-- The first spawn runs out of descriptors, the second one would succeed. -/
def failsFirst : Nat → SpawnOutcome
  | 0 => .socketpairFails 24
  | _ => .spawned 1

theorem failed_spawn_ends_coordinator :
    ¬ AnswersAll [Duration.zero, Duration.zero] failsFirst false ∧
      (getOrCreateOwner (fun _ => true) 1 Duration.zero [.spawned 1]
        (getOrCreateOwner (fun _ => true) 0 Duration.zero [.socketpairFails 24] .initial).2).1 =
        some (.error (.os Errno.PIPE)) := by
  constructor
  · rintro ⟨fuel, sockets, ran, -⟩
    have first := succeeds_of_run false ran 0 (by decide)
    exact absurd first (by decide)
  · decide +kernel

end Ulockmgr.Spawner
