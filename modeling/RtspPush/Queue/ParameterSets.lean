import RtspPush.Lib.FirstWins
import RtspPush.Queue.History

/-!
# `sps_` and `pps_`

`pushPureNaluLocked` caches the first SPS and the first PPS it is handed. Each cache is a cell of
`Lib.FirstWins`: the empty byte string says that nothing was cached yet, and an empty NALU has no
type, so it is never wanted. A pop, a clear and an eviction take NALUs from the queue and leave
the caches alone, so after any run each cache depends only on what was produced, in order.
-/

namespace RtspPush

open Lib FirstWins

/-- The low five bits of the first byte of a NALU. -/
def nalUnitType (nal : List UInt8) : Option UInt8 := nal.head?.map (· &&& 0x1F)

/-- The two caches of the queue. -/
inductive ParameterSet
  | sps
  | pps
  deriving DecidableEq, Repr

/-- The NAL unit type that a cache waits for. -/
def ParameterSet.nalType : ParameterSet → UInt8
  | .sps => 7
  | .pps => 8

/-- A NALU of the type of the cache. -/
def ParameterSet.wants (set : ParameterSet) (nal : List UInt8) : Bool :=
  nalUnitType nal = some set.nalType

theorem ParameterSet.wants_iff {set : ParameterSet} {nal : List UInt8} :
    set.wants nal = true ↔ nalUnitType nal = some set.nalType := by
  simp [wants]

theorem ParameterSet.wants_nil (set : ParameterSet) : set.wants [] = false := by
  cases set <;> rfl

namespace H264FrameQueue

variable (q : H264FrameQueue) (set : ParameterSet)

def cache (q : H264FrameQueue) : ParameterSet → List UInt8
  | .sps => q.sps
  | .pps => q.pps

/-- `hasSps()` and `hasPps()` say that the cache is not empty. -/
theorem cache_ne_nil_iff :
    q.cache set ≠ [] ↔
      (match set with
        | .sps => q.hasSps
        | .pps => q.hasPps) = true := by
  cases set <;> simp [cache, hasSps, hasPps]

/-! ## What the operations do to a cache -/

/-- A NALU is offered to both caches: the tests for 7 and 8 exclude each other. -/
theorem cache_pushPureNaluLocked (nal : List UInt8) (time : Timeval) :
    (q.pushPureNaluLocked nal time).cache set =
      offer [] set.wants (q.cache set) nal := by
  cases nal with
  | nil => simp [pushPureNaluLocked, offer, set.wants_nil]
  | cons byte rest =>
    have hwants : set.wants (byte :: rest) = true ↔ byte &&& 0x1F = set.nalType := by
      rw [set.wants_iff]
      exact Option.some_inj
    by_cases hsps : byte &&& 0x1F = 7 ∧ q.sps = []
    · cases set with
      | sps =>
        have htake : offer [] ParameterSet.sps.wants q.sps (byte :: rest) = byte :: rest :=
          if_pos ⟨hwants.mpr hsps.1, hsps.2⟩
        simp only [pushPureNaluLocked, if_pos hsps, cache, htake]
      | pps =>
        have hkeep : offer [] ParameterSet.pps.wants q.pps (byte :: rest) = q.pps := by
          refine if_neg fun hpps => ?_
          have htype := hsps.1.symm.trans (hwants.mp hpps.1)
          cases htype
        simp only [pushPureNaluLocked, if_pos hsps, cache, hkeep]
    · by_cases hpps : byte &&& 0x1F = 8 ∧ q.pps = []
      · cases set with
        | sps =>
          have hkeep : offer [] ParameterSet.sps.wants q.sps (byte :: rest) = q.sps :=
            if_neg fun h => hsps ⟨hwants.mp h.1, h.2⟩
          simp only [pushPureNaluLocked, if_neg hsps, if_pos hpps, cache, hkeep]
        | pps =>
          have htake : offer [] ParameterSet.pps.wants q.pps (byte :: rest) = byte :: rest :=
            if_pos ⟨hwants.mpr hpps.1, hpps.2⟩
          simp only [pushPureNaluLocked, if_neg hsps, if_pos hpps, cache, htake]
      · have hkeep : offer [] set.wants (q.cache set) (byte :: rest) = q.cache set := by
          refine if_neg fun h => ?_
          cases set with
          | sps => exact hsps ⟨hwants.mp h.1, h.2⟩
          | pps => exact hpps ⟨hwants.mp h.1, h.2⟩
        rw [hkeep]
        cases set <;> simp only [pushPureNaluLocked, if_neg hsps, if_neg hpps, cache]

theorem cache_pushAll (time : Timeval) (nals : List (List UInt8)) :
    (q.pushAll time nals).cache set = offerAll [] set.wants (q.cache set) nals := by
  induction nals generalizing q with
  | nil => rfl
  | cons nal nals ih =>
    have hrest := ih (q.pushPureNaluLocked nal time)
    rw [cache_pushPureNaluLocked] at hrest
    exact hrest

/-- A call offers to the caches what it produces, and nothing else. -/
theorem cache_apply (op : QueueOp) :
    (q.apply op).cache set =
      offerAll [] set.wants (q.cache set) ((producedBy op).map Nalu.data) := by
  cases op with
  | pushAnnexBFrame data timestampUs =>
    have hdata : (produced data timestampUs).map Nalu.data = producedNalus data := by
      simp [produced, Function.comp_def]
    rw [apply, pushAnnexBFrame_fst, cache_pushAll, producedBy, hdata]
  | popNalu =>
    simp only [apply, popNalu]
    split <;> rfl
  | clear => rfl
  | registerReader scheduler triggerId clientData =>
    simp only [apply, registerReader]
    split
    · rfl
    · split <;> rfl
  | unregisterReader triggerId => rfl

/-- The bytes of the NALUs that a list of calls produces, in order. -/
def producedData (ops : List QueueOp) : List (List UInt8) :=
  (ops.flatMap producedBy).map Nalu.data

theorem cache_run (ops : List QueueOp) :
    (q.run ops).cache set = offerAll [] set.wants (q.cache set) (producedData ops) := by
  induction ops generalizing q with
  | nil => rfl
  | cons op ops ih =>
    have hrest := ih (q.apply op)
    rw [cache_apply, ← offerAll_append] at hrest
    rw [producedData, List.flatMap_cons, List.map_append]
    exact hrest

/-! ## The caches over a whole run -/

theorem run_append (first later : List QueueOp) :
    q.run (first ++ later) = (q.run first).run later :=
  List.foldl_append

theorem cache_new : new.cache set = [] := by
  cases set <;> rfl

/-- A cache is set exactly when a NALU of its type was produced. -/
theorem cache_run_ne_nil_iff (ops : List QueueOp) :
    (new.run ops).cache set ≠ [] ↔
      ∃ nal ∈ producedData ops, nalUnitType nal = some set.nalType := by
  rw [cache_run, cache_new, offerAll_ne_unset_iff set.wants_nil]
  simp only [set.wants_iff]

/-- A cache that is set holds the first NALU of its type, and goes on holding it. -/
theorem cache_run_of_ne_nil {ops : List QueueOp} (h : (new.run ops).cache set ≠ []) :
    (producedData ops).find? set.wants = some ((new.run ops).cache set) ∧
      ∀ later, (new.run (ops ++ later)).cache set = (new.run ops).cache set := by
  constructor
  · rw [cache_run, cache_new] at h ⊢
    exact find?_eq_some_of_set set.wants_nil h
  · intro later
    rw [run_append, cache_run]
    exact offerAll_of_set h _

/-- **The parameter-set caches.** After any run `hasSps` says whether a NALU of type 7 was
produced so far, whatever became of it in the queue; `sps_` then holds the first such NALU, and
holds it after every continuation of the run. The same for `hasPps`, `pps_` and type 8. -/
theorem parameterSets_history (ops : List QueueOp) :
    let q := new.run ops
    let nals := (ops.flatMap producedBy).map Nalu.data
    ((q.hasSps = true ↔ ∃ nal ∈ nals, nalUnitType nal = some 7) ∧
        (q.hasSps = true →
          nals.find? (nalUnitType · = some 7) = some q.sps ∧
            ∀ later, (new.run (ops ++ later)).sps = q.sps)) ∧
      (q.hasPps = true ↔ ∃ nal ∈ nals, nalUnitType nal = some 8) ∧
        (q.hasPps = true →
          nals.find? (nalUnitType · = some 8) = some q.pps ∧
            ∀ later, (new.run (ops ++ later)).pps = q.pps) := by
  intro q nals
  have hsps := q.cache_ne_nil_iff .sps
  have hpps := q.cache_ne_nil_iff .pps
  refine ⟨⟨?_, fun h => ?_⟩, ?_, fun h => ?_⟩
  · exact hsps.symm.trans (cache_run_ne_nil_iff .sps ops)
  · exact cache_run_of_ne_nil .sps (hsps.mpr h)
  · exact hpps.symm.trans (cache_run_ne_nil_iff .pps ops)
  · exact cache_run_of_ne_nil .pps (hpps.mpr h)

end H264FrameQueue

end RtspPush
