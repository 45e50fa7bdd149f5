import ThreadComponent.DerivedWorker
import ThreadComponent.History

/-!
# The heartbeat

Any number of threads call `updateHeartbeat` while the worker is started and stopped. Each of them
has read the clock for the default argument before it takes `m_heartBeatMutex`; `startThread` reads
the clock inside its section, behind the creation of the thread. A time is a number of nanoseconds
of the steady clock.
-/

set_option autoImplicit false
set_option linter.unusedSectionVars false

namespace ThreadComponent

open Transitions System

def durationCast (nanoseconds : Int) : Int := nanoseconds.tdiv 1000000

/-- A `time_point` has 64 bits with a sign. -/
def timeLimit : Nat := 9223372036854775808

/-- The members behind `m_heartBeatMutex`. `B` names the threads in `updateHeartbeat`, with the
argument that they have read, and `resetting` the starters that have not yet set the heartbeat. -/
structure Heartbeat (B C : Type) where
  now : Nat
  mHeartBeat : Nat
  mHeartBeatPeriod : Int := 0
  beating : B → Option Nat := fun _ => none
  resetting : C → Bool := fun _ => false

inductive HeartbeatAction (B C : Type) where
  | tick (d : Nat)
  | readClock (b : B)
  | update (b : B)
  | reset (c : C)
  deriving DecidableEq, Repr

namespace Heartbeat
variable {B C : Type}

def updateHeartbeat (o : Heartbeat B C) (heartBeat : Nat) : Heartbeat B C :=
  { o with
    mHeartBeatPeriod := durationCast (heartBeat - o.mHeartBeat)
    mHeartBeat := heartBeat }

/-- The section of `startThread`. -/
def startHeartbeat (o : Heartbeat B C) : Heartbeat B C :=
  { o with
    mHeartBeat := o.now
    mHeartBeatPeriod := 0 }

def lastHeartbeat (o : Heartbeat B C) : Nat := o.mHeartBeat

def heartBeatPeriod (o : Heartbeat B C) : Int := o.mHeartBeatPeriod

/-- `HeartBeatPeriod`, the count as `std::uint64_t`. -/
def heartBeatPeriodCount (o : Heartbeat B C) : Nat := (o.heartBeatPeriod % 18446744073709551616).toNat

variable [DecidableEq B] [DecidableEq C]

/-- A starter goes on only when it has set the heartbeat. -/
def sync (s : BaseWorker C) : BaseAction C → Heartbeat B C → Option (Heartbeat B C)
  | .startSection c created, o =>
    if s.mayStart ∧ created then
      some { o with resetting := Function.update o.resetting c true }
    else some o
  | .waitForStart c, o => if o.resetting c then none else some o
  | .call c _, o => if o.resetting c then none else some o
  | _, o => some o

def own (o : Heartbeat B C) : HeartbeatAction B C → Option (Heartbeat B C)
  | .tick d => if o.now + d < timeLimit then some { o with now := o.now + d } else none
  | .readClock b =>
    match o.beating b with
    | none => some { o with beating := Function.update o.beating b (some o.now) }
    | some _ => none
  | .update b =>
    match o.beating b with
    | some heartBeat =>
      some { o.updateHeartbeat heartBeat with beating := Function.update o.beating b none }
    | none => none
  | .reset c =>
    if o.resetting c then
      some { o.startHeartbeat with resetting := Function.update o.resetting c false }
    else none

end Heartbeat

section Worker
variable {B C : Type} [DecidableEq B] [DecidableEq C] {start : Nat}

def heartbeatWorker (B C : Type) [DecidableEq B] [DecidableEq C] (start : Nat) :
    Derived C (Heartbeat B C) (HeartbeatAction B C) where
  init := { now := start, mHeartBeat := start }
  sync := Heartbeat.sync
  own _ := Heartbeat.own

/-! ## What has been recorded -/

/-- A recorded heartbeat: its time, and whether it is that of a start. -/
structure Recorded where
  time : Nat
  start : Bool
  deriving DecidableEq, Repr

/-- The milliseconds between the last two recorded heartbeats, and none behind a start. -/
def gap : List Recorded → Int
  | ⟨time, false⟩ :: r :: _ => durationCast (time - r.time)
  | _ => 0

def recorded (o : Heartbeat B C) : ObjectAction C (HeartbeatAction B C) → List Recorded
  | .own (.update b) => ((o.beating b).map fun time => ⟨time, false⟩).toList
  | .own (.reset _) => [⟨o.now, true⟩]
  | _ => []

def noteHeartbeat (s : Object C (Heartbeat B C)) (a : ObjectAction C (HeartbeatAction B C))
    (records : List Recorded) : List Recorded :=
  recorded s.ext a ++ records

/-- The newest heartbeat comes first; the one that the object is made with counts as a start. -/
def heartbeatHistory (B C : Type) [DecidableEq B] [DecidableEq C] (start : Nat) :
    System (Object C (Heartbeat B C) × List Recorded) (ObjectAction C (HeartbeatAction B C)) :=
  (heartbeatWorker B C start).system.withHistory [⟨start, true⟩] noteHeartbeat

/-- An `updateHeartbeat` takes the mutex before any heartbeat is recorded that is later than the
one it has read. -/
def InClockOrder (x : Object C (Heartbeat B C) × List Recorded) :
    ObjectAction C (HeartbeatAction B C) → Prop
  | .own (.update b) => ∀ time ∈ x.1.ext.beating b, ∀ r ∈ x.2, r.time ≤ time
  | _ => True

instance (x : Object C (Heartbeat B C) × List Recorded) (a : ObjectAction C (HeartbeatAction B C)) :
    Decidable (InClockOrder x a) :=
  match a with
  | .base _ => inferInstanceAs (Decidable True)
  | .own (.tick _) => inferInstanceAs (Decidable True)
  | .own (.readClock _) => inferInstanceAs (Decidable True)
  | .own (.reset _) => inferInstanceAs (Decidable True)
  | .own (.update b) =>
    inferInstanceAs (Decidable (∀ time ∈ x.1.ext.beating b, ∀ r ∈ x.2, r.time ≤ time))

/-! ## In every run -/

/-- The members are those of the last two recorded heartbeats, and no time lies in the future. -/
structure Kept (start : Nat) (o : Heartbeat B C) (records : List Recorded) : Prop where
  newest : records.head?.map Recorded.time = some o.mHeartBeat
  period : o.mHeartBeatPeriod = gap records
  past : ∀ r ∈ records, start ≤ r.time ∧ r.time ≤ o.now
  readings : ∀ b, ∀ time ∈ o.beating b, start ≤ time ∧ time ≤ o.now
  clock : o.now = start ∨ o.now < timeLimit

theorem Kept.start_le {o : Heartbeat B C} {records : List Recorded} (h : Kept start o records) :
    start ≤ o.now := by
  obtain ⟨r, hr, -⟩ := Option.map_eq_some_iff.mp h.newest
  have hpast := h.past r (List.mem_of_mem_head? hr)
  omega

/-- A thread has read the clock, or has recorded what it has read. -/
theorem Kept.readings_update {o : Heartbeat B C} {records : List Recorded}
    (h : Kept start o records) (b : B) {value : Option Nat}
    (hvalue : value = some o.now ∨ value = none) :
    ∀ b', ∀ time ∈ Function.update o.beating b value b', start ≤ time ∧ time ≤ o.now := by
  refine (Function.forall_update_iff o.beating
    fun _ value => ∀ time ∈ value, start ≤ time ∧ time ≤ o.now).mpr
      ⟨fun time ht => ?_, fun b' _ => h.readings b'⟩
  rcases hvalue with rfl | rfl
  · obtain rfl := Option.some.inj ht
    exact ⟨h.start_le, Nat.le_refl _⟩
  · cases ht

theorem sync_frame {s : BaseWorker C} {a : BaseAction C} {o o' : Heartbeat B C}
    (h : Heartbeat.sync s a o = some o') :
    o'.now = o.now ∧ o'.mHeartBeat = o.mHeartBeat ∧ o'.mHeartBeatPeriod = o.mHeartBeatPeriod ∧
      o'.beating = o.beating := by
  unfold Heartbeat.sync at h
  split at h
  · split at h <;> cases h <;> exact ⟨rfl, rfl, rfl, rfl⟩
  · split at h
    · cases h
    · cases h
      exact ⟨rfl, rfl, rfl, rfl⟩
  · split at h
    · cases h
    · cases h
      exact ⟨rfl, rfl, rfl, rfl⟩
  · cases h
    exact ⟨rfl, rfl, rfl, rfl⟩

theorem gap_update {records : List Recorded} {o : Heartbeat B C} (time : Nat)
    (h : records.head?.map Recorded.time = some o.mHeartBeat) :
    gap (⟨time, false⟩ :: records) = durationCast (time - o.mHeartBeat) := by
  obtain ⟨r, hr, htime⟩ := Option.map_eq_some_iff.mp h
  obtain ⟨rest, rfl⟩ := List.head?_eq_some_iff.mp hr
  rw [gap, htime]

theorem recorded_update {o : Heartbeat B C} {b : B} {time : Nat} (h : o.beating b = some time) :
    recorded o (.own (.update b) : ObjectAction C (HeartbeatAction B C)) = [⟨time, false⟩] := by
  rw [recorded, h]
  rfl

theorem Kept.own {o o' : Heartbeat B C} {a : HeartbeatAction B C} {records : List Recorded}
    (hk : Kept start o records) (h : o.own a = some o') :
    Kept start o' (recorded o (.own a : ObjectAction C (HeartbeatAction B C)) ++ records) := by
  cases a with
  | tick d =>
    simp only [Heartbeat.own, Option.ite_none_right_eq_some, Option.some.injEq] at h
    obtain ⟨hlimit, rfl⟩ := h
    refine ⟨hk.newest, hk.period, fun r hr => ?_, fun b time ht => ?_, .inr hlimit⟩
    · have hpast := hk.past r hr
      exact ⟨hpast.1, Nat.le_trans hpast.2 (Nat.le_add_right ..)⟩
    · have hreading := hk.readings b time ht
      exact ⟨hreading.1, Nat.le_trans hreading.2 (Nat.le_add_right ..)⟩
  | readClock b =>
    simp only [Heartbeat.own] at h
    split at h
    · obtain rfl := Option.some.inj h
      exact ⟨hk.newest, hk.period, hk.past, hk.readings_update b (.inl rfl), hk.clock⟩
    · cases h
  | update b =>
    simp only [Heartbeat.own] at h
    split at h
    · rename_i time hbeating
      obtain rfl := Option.some.inj h
      rw [recorded_update hbeating]
      refine ⟨rfl, (gap_update time hk.newest).symm, fun r hr => ?_,
        hk.readings_update b (.inr rfl), hk.clock⟩
      rcases List.mem_cons.mp hr with rfl | hr
      · exact hk.readings b time hbeating
      · exact hk.past r hr
    · cases h
  | reset c =>
    simp only [Heartbeat.own, Option.ite_none_right_eq_some, Option.some.injEq] at h
    obtain ⟨-, rfl⟩ := h
    refine ⟨rfl, rfl, fun r hr => ?_, hk.readings, hk.clock⟩
    rcases List.mem_cons.mp hr with rfl | hr
    · exact ⟨hk.start_le, Nat.le_refl _⟩
    · exact hk.past r hr

theorem Kept.step {s t : Object C (Heartbeat B C)} {a : ObjectAction C (HeartbeatAction B C)}
    {records : List Recorded} (hk : Kept start s.ext records)
    (h : (heartbeatWorker B C start).step s a = some t) :
    Kept start t.ext (noteHeartbeat s a records) := by
  cases a with
  | base a =>
    obtain ⟨hnow, hbeat, hperiod, hbeating⟩ := sync_frame (Derived.step_base.mp h).2
    refine ⟨?_, ?_, ?_, ?_, ?_⟩
    · rw [hbeat]
      exact hk.newest
    · rw [hperiod]
      exact hk.period
    · rw [hnow]
      exact hk.past
    · rw [hbeating, hnow]
      exact hk.readings
    · rw [hnow]
      exact hk.clock
  | own a => exact hk.own (Derived.step_own.mp h).2

theorem kept_of_reachable {x : Object C (Heartbeat B C) × List Recorded}
    (hr : (heartbeatHistory B C start).Reachable x) : Kept start x.1.ext x.2 := by
  refine Reachable.related (R := fun s records => Kept start s.ext records) ?_ ?_ hr
  · refine ⟨rfl, rfl, fun r hr => ?_, fun b time ht => ?_, .inl rfl⟩
    · obtain rfl := List.mem_singleton.mp hr
      exact ⟨Nat.le_refl _, Nat.le_refl _⟩
    · cases ht
  · intro s a t records _ hk hs
    exact hk.step hs

/-! ## In a run in the order of the clock -/

def Ordered (records : List Recorded) : Prop :=
  records.Pairwise fun newer older => older.time ≤ newer.time

theorem ordered_of_reachable {x : Object C (Heartbeat B C) × List Recorded}
    (hr : (heartbeatHistory B C start).ReachableBy InClockOrder x) : Ordered x.2 := by
  refine ReachableBy.invariant (P := fun x => Ordered x.2) ?_ ?_ hr
  · exact List.pairwise_singleton _ _
  · intro x a y hr hordered hok hs
    have hpast := (kept_of_reachable hr.free).past
    rw [(step_withHistory.mp hs).2]
    cases a with
    | base a => exact hordered
    | own a =>
      cases a with
      | tick d => exact hordered
      | readClock b => exact hordered
      | update b =>
        unfold noteHeartbeat
        cases hbeating : x.1.ext.beating b with
        | none =>
          have hnone : recorded x.1.ext (.own (.update b)) = [] := by simp [recorded, hbeating]
          rwa [hnone]
        | some time =>
          rw [recorded_update hbeating]
          exact List.pairwise_cons.mpr ⟨hok time hbeating, hordered⟩
      | reset c => exact List.pairwise_cons.mpr ⟨fun r hr => (hpast r hr).2, hordered⟩

structure MonotoneHeartbeat (o : Heartbeat B C) (records : List Recorded) : Prop where
  last : records.head?.map Recorded.time = some o.lastHeartbeat
  ordered : Ordered records
  nonneg : 0 ≤ o.heartBeatPeriod
  count : (o.heartBeatPeriodCount : Int) = gap records

theorem gap_bounds {o : Heartbeat B C} {records : List Recorded} (hk : Kept start o records)
    (hordered : Ordered records) : 0 ≤ gap records ∧ gap records < 18446744073709551616 := by
  unfold gap
  split
  · rename_i time r rest
    have hle : r.time ≤ time := List.rel_of_pairwise_cons hordered List.mem_cons_self
    have hnow := (hk.past _ List.mem_cons_self).2
    have hstart := (hk.past r (List.mem_cons_of_mem _ List.mem_cons_self)).1
    have hclock := hk.clock
    rw [durationCast, Int.tdiv_eq_ediv_of_nonneg (by omega)]
    unfold timeLimit at hclock
    simp only at hnow
    omega
  · decide

theorem monotone_of_kept {o : Heartbeat B C} {records : List Recorded} (hk : Kept start o records)
    (hordered : Ordered records) : MonotoneHeartbeat o records := by
  obtain ⟨hnonneg, hlimit⟩ := gap_bounds hk hordered
  have hperiod : o.heartBeatPeriod = gap records := hk.period
  refine ⟨hk.newest, hordered, hperiod ▸ hnonneg, ?_⟩
  rw [Heartbeat.heartBeatPeriodCount, hperiod, Int.emod_eq_of_lt hnonneg hlimit,
    Int.toNat_of_nonneg hnonneg]

theorem records_suffix {ok : Object C (Heartbeat B C) × List Recorded →
      ObjectAction C (HeartbeatAction B C) → Prop} {x y : Object C (Heartbeat B C) × List Recorded}
    (h : (heartbeatHistory B C start).Reaches ok x y) : x.2 <:+ y.2 := by
  refine Reaches.keeps (P := fun y => x.2 <:+ y.2) ?_ h (List.suffix_refl _)
  intro y a z hy _ hs
  rw [(step_withHistory.mp hs).2]
  exact hy.trans (List.suffix_append _ _)

theorem MonotoneHeartbeat.le_last {o : Heartbeat B C} {records : List Recorded}
    (h : MonotoneHeartbeat o records) {r : Recorded} (hr : r ∈ records) :
    r.time ≤ o.lastHeartbeat := by
  obtain ⟨newest, hhead, htime⟩ := Option.map_eq_some_iff.mp h.last
  obtain ⟨rest, hrest⟩ := List.head?_eq_some_iff.mp hhead
  have hordered := h.ordered
  rw [hrest] at hr hordered
  rw [← htime]
  rcases List.mem_cons.mp hr with rfl | hr
  · exact Nat.le_refl _
  · exact List.rel_of_pairwise_cons hordered hr

/-- A run in the order of the clock never takes the heartbeat back. -/
theorem heartbeat_is_monotone {x : Object C (Heartbeat B C) × List Recorded}
    (hr : (heartbeatHistory B C start).ReachableBy InClockOrder x) :
    MonotoneHeartbeat x.1.ext x.2 ∧
      ∀ y, (heartbeatHistory B C start).Reaches InClockOrder x y →
        x.1.ext.lastHeartbeat ≤ y.1.ext.lastHeartbeat := by
  have hmonotone : ∀ y, (heartbeatHistory B C start).ReachableBy InClockOrder y →
      MonotoneHeartbeat y.1.ext y.2 :=
    fun y hy => monotone_of_kept (kept_of_reachable hy.free) (ordered_of_reachable hy)
  refine ⟨hmonotone x hr, fun y hy => ?_⟩
  obtain ⟨r, hhead, htime⟩ := Option.map_eq_some_iff.mp (hmonotone x hr).last
  rw [← htime]
  exact (hmonotone y (Reaches.trans hr hy)).le_last
    ((records_suffix hy).mem (List.mem_of_mem_head? hhead))

/-- Two threads beat behind a start; `true` reads the clock first and has not recorded yet. -/
def beatSchedule (d : Nat) : List (ObjectAction Unit (HeartbeatAction Bool Unit)) :=
  [.base (.call () (.startThread false)), .base (.joinFinished ()), .base (.startSection () true),
    .own (.reset ()), .own (.readClock true), .own (.tick d), .own (.readClock false),
    .own (.update false)]

theorem heartbeat_is_monotone_five :
    let S := heartbeatHistory Bool Unit 0
    (S.after InClockOrder S.init (beatSchedule 5000000)).1.ext.heartBeatPeriodCount = 5 := by
  intro S
  have hcount := (heartbeat_is_monotone (x := S.after InClockOrder S.init (beatSchedule 5000000))
    (reaches_after (by decide))).1.count
  have hgap : gap (S.after InClockOrder S.init (beatSchedule 5000000)).2 = 5 := by decide
  rw [hgap] at hcount
  exact Int.ofNat.inj hcount

/-- The thread that has read the clock first records its heartbeat last. -/
theorem overtaken_heartbeat_goes_back :
    ¬ ∀ (B C : Type) [DecidableEq B] [DecidableEq C] (start : Nat)
        (x : Object C (Heartbeat B C) × List Recorded),
      (heartbeatHistory B C start).Reachable x →
        MonotoneHeartbeat x.1.ext x.2 ∧
          ∀ y, (heartbeatHistory B C start).Reaches Free x y →
            x.1.ext.lastHeartbeat ≤ y.1.ext.lastHeartbeat := by
  intro h
  have hr : (heartbeatHistory Bool Unit 0).Reachable ((heartbeatHistory Bool Unit 0).after Free
      (heartbeatHistory Bool Unit 0).init (beatSchedule 5000000 ++ [.own (.update true)])) :=
    reaches_after (by decide)
  have hnonneg := (h Bool Unit 0 _ hr).1.nonneg
  revert hnonneg
  decide

end Worker

end ThreadComponent
