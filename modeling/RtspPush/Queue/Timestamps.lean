import Mathlib.Algebra.Group.Nat.Defs
import RtspPush.Queue.History

/-!
# Presentation times survive and stay ordered

`timestampToTimeval` splits a 64-bit count of microseconds into seconds and microseconds; nothing
is lost (`timestampToTimeval_toNat`) and the lexicographic order on the two fields is the order of
the counts (`timestampToTimeval_le`). `stamped` keeps beside every produced NALU the timestamp of
the push that produced it, so the numbers of the drop-oldest history tie each popped NALU to its
own push, whatever was evicted or cleared in between.
-/

namespace RtspPush

open Lib DropOldest

/-! ## `timestampToTimeval` -/

/-- The lexicographic order on `(tv_sec, tv_usec)`. -/
def Timeval.Le (a b : Timeval) : Prop :=
  a.tv_sec < b.tv_sec ∨ (a.tv_sec = b.tv_sec ∧ a.tv_usec ≤ b.tv_usec)

theorem toInt_toInt64 {x : UInt64} (h : x.toNat < 2 ^ 63) : x.toInt64.toInt = x.toNat := by
  have hlt : 2 * x.toBitVec.toNat < 2 ^ 64 := by
    rw [UInt64.toNat_toBitVec]
    omega
  exact BitVec.toInt_eq_toNat_of_lt hlt

namespace H264FrameQueue

theorem tv_sec_toInt (timestampUs : UInt64) :
    (timestampToTimeval timestampUs).tv_sec.toInt = (timestampUs.toNat / 1000000 : Nat) := by
  have hlt := timestampUs.toNat_lt
  have hdiv : (timestampUs / 1000000).toNat = timestampUs.toNat / 1000000 := UInt64.toNat_div ..
  rw [timestampToTimeval, toInt_toInt64 (by omega), hdiv]

theorem tv_usec_toInt (timestampUs : UInt64) :
    (timestampToTimeval timestampUs).tv_usec.toInt = (timestampUs.toNat % 1000000 : Nat) := by
  have hmod : (timestampUs % 1000000).toNat = timestampUs.toNat % 1000000 := UInt64.toNat_mod ..
  rw [timestampToTimeval, toInt_toInt64 (by omega), hmod]

/-- **Nothing of a timestamp is lost.** -/
theorem timestampToTimeval_toNat (timestampUs : UInt64) :
    let time := timestampToTimeval timestampUs
    0 ≤ time.tv_usec.toInt ∧ time.tv_usec.toInt < 1000000 ∧
      time.tv_sec.toInt * 1000000 + time.tv_usec.toInt = timestampUs.toNat := by
  simp only [tv_sec_toInt, tv_usec_toInt]
  omega

theorem timestampToTimeval_inj {a b : UInt64}
    (h : timestampToTimeval a = timestampToTimeval b) : a = b := by
  have ha := (timestampToTimeval_toNat a).2.2
  have hb := (timestampToTimeval_toNat b).2.2
  rw [h] at ha
  exact UInt64.toNat_inj.mp (by omega)

theorem timestampToTimeval_le {a b : UInt64} (h : a ≤ b) :
    (timestampToTimeval a).Le (timestampToTimeval b) := by
  have hab : a.toNat ≤ b.toNat := UInt64.le_iff_toNat_le.mp h
  rw [Timeval.Le, Int64.lt_iff_toInt_lt, ← Int64.toInt_inj, Int64.le_iff_toInt_le]
  simp only [tv_sec_toInt, tv_usec_toInt]
  omega

/-! ## The push behind each NALU -/

/-- The NALUs that a call produces, each with the timestamp of the push. -/
def stamped : QueueOp → List (Nalu × UInt64)
  | .pushAnnexBFrame data timestampUs =>
    (produced data timestampUs).map fun nalu => (nalu, timestampUs)
  | _ => []

/-- The timestamp of a call that is a push. -/
def pushTime : QueueOp → Option UInt64
  | .pushAnnexBFrame _ timestampUs => some timestampUs
  | _ => none

theorem map_stamped (op : QueueOp) : (stamped op).map Prod.fst = producedBy op := by
  cases op with
  | pushAnnexBFrame data timestampUs =>
    simp only [stamped, producedBy, List.map_map]
    exact List.map_id _
  | _ => rfl

theorem flatMap_stamped (ops : List QueueOp) :
    (ops.flatMap stamped).map Prod.fst = ops.flatMap producedBy := by
  rw [List.map_flatMap]
  exact List.flatMap_congr fun op _ => map_stamped op

/-- A produced NALU has the time of its push. -/
theorem stamped_time {op : QueueOp} {p : Nalu × UInt64} (h : p ∈ stamped op) :
    pushTime op = some p.2 ∧ p.1.presentationTime = timestampToTimeval p.2 := by
  cases op with
  | pushAnnexBFrame data timestampUs =>
    obtain ⟨nalu, hnalu, rfl⟩ := List.mem_map.mp h
    obtain ⟨nal, -, rfl⟩ := List.mem_map.mp hnalu
    exact ⟨rfl, rfl⟩
  | _ => cases h

/-- Pushes with non-decreasing timestamps produce NALUs with non-decreasing timestamps. -/
theorem stamped_pairwise {ops : List QueueOp}
    (h : (ops.filterMap pushTime).Pairwise (· ≤ ·)) :
    (ops.flatMap stamped).Pairwise fun p q => p.2 ≤ q.2 := by
  induction ops with
  | nil => exact List.Pairwise.nil
  | cons op ops ih =>
    have hrest : (ops.filterMap pushTime).Pairwise (· ≤ ·) :=
      h.sublist ((List.sublist_cons_self op ops).filterMap pushTime)
    rw [List.flatMap_cons, List.pairwise_append]
    refine ⟨?_, ih hrest, fun p hp q hq => ?_⟩
    · refine List.pairwise_of_forall_mem_list fun p hp q hq => ?_
      have hsame : p.2 = q.2 :=
        Option.some.inj ((stamped_time hp).1.symm.trans (stamped_time hq).1)
      exact UInt64.le_iff_toNat_le.mpr (Nat.le_of_eq (congrArg UInt64.toNat hsame))
    · obtain ⟨op', hop', hq⟩ := List.mem_flatMap.mp hq
      rw [List.filterMap_cons_some (stamped_time hp).1, List.pairwise_cons] at h
      exact h.1 q.2 (List.mem_filterMap.mpr ⟨op', hop', (stamped_time hq).1⟩)

/-! ## The popped NALUs -/

/-- A popped NALU and the timestamp of the push that produced it, found by its number. -/
theorem stamp_of_popped (ops : List QueueOp) {p : Nat × Nalu}
    (hp : p ∈ pops (history ops).log) :
    ∃ timestampUs, (ops.flatMap stamped)[p.1]? = some (p.2, timestampUs) ∧
      p.2.presentationTime = timestampToTimeval timestampUs := by
  obtain ⟨-, hitems, -⟩ := run_history ops
  have hs : Sound capacity (history ops) := run_sound (by decide) _
  have hitem := hs.popped_items p.1 p.2 (mem_pops.mp hp)
  rw [hitems, ← flatMap_stamped, List.getElem?_map] at hitem
  obtain ⟨⟨nalu, timestampUs⟩, hstamp, rfl⟩ := Option.map_eq_some_iff.mp hitem
  obtain ⟨op, -, hmem⟩ := List.mem_flatMap.mp (List.mem_of_getElem? hstamp)
  exact ⟨timestampUs, hstamp, (stamped_time hmem).2⟩

/-- **Presentation times survive and stay ordered.** `stamps` lists all produced NALUs in order of
production, each with the timestamp of its push, and `popped` the popped ones with their numbers
in this order. Each popped NALU's time has its microseconds below a million and adds up to the
timestamp of its push; with non-decreasing timestamps the popped times are non-decreasing; and
two of them are equal only if the timestamps are. -/
theorem presentation_times (ops : List QueueOp) :
    let popped := pops (history ops).log
    let stamps := ops.flatMap stamped
    (stamps.map Prod.fst = ops.flatMap producedBy ∧ popped.map Prod.snd = new.returnedBy ops) ∧
      (∀ p ∈ popped, ∃ timestampUs, stamps[p.1]? = some (p.2, timestampUs) ∧
        0 ≤ p.2.presentationTime.tv_usec.toInt ∧ p.2.presentationTime.tv_usec.toInt < 1000000 ∧
        p.2.presentationTime.tv_sec.toInt * 1000000 + p.2.presentationTime.tv_usec.toInt =
          timestampUs.toNat) ∧
      ((ops.filterMap pushTime).Pairwise (· ≤ ·) →
        popped.Pairwise fun p q => p.2.presentationTime.Le q.2.presentationTime) ∧
      ∀ p ∈ popped, ∀ q ∈ popped, p.2.presentationTime = q.2.presentationTime →
        stamps[p.1]?.map Prod.snd = stamps[q.1]?.map Prod.snd := by
  intro popped stamps
  have hs : Sound capacity (history ops) := run_sound (by decide) _
  refine ⟨⟨flatMap_stamped ops, (run_history ops).2.2⟩, fun p hp => ?_, fun hsorted => ?_,
    fun p hp q hq htime => ?_⟩
  · obtain ⟨timestampUs, hstamp, htime⟩ := stamp_of_popped ops hp
    rw [htime]
    exact ⟨timestampUs, hstamp, timestampToTimeval_toNat timestampUs⟩
  · refine hs.increasing.imp_of_mem fun {p q} hp hq hlt => ?_
    obtain ⟨a, ha, htime⟩ := stamp_of_popped ops hp
    obtain ⟨b, hb, htime'⟩ := stamp_of_popped ops hq
    rw [htime, htime']
    obtain ⟨hp', hpa⟩ := List.getElem?_eq_some_iff.mp ha
    obtain ⟨hq', hqb⟩ := List.getElem?_eq_some_iff.mp hb
    have hle := List.pairwise_iff_getElem.mp (stamped_pairwise hsorted) p.1 q.1 hp' hq' hlt
    rw [hpa, hqb] at hle
    exact timestampToTimeval_le hle
  · obtain ⟨a, ha, hpa⟩ := stamp_of_popped ops hp
    obtain ⟨b, hb, hqb⟩ := stamp_of_popped ops hq
    have hab : a = b := timestampToTimeval_inj (hpa.symm.trans (htime.trans hqb))
    simp only [stamps, ha, hb, Option.map_some, hab]

end H264FrameQueue

end RtspPush
