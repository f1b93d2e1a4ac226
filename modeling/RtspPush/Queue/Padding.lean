import RtspPush.AnnexB.Encode
import RtspPush.Queue.Push

/-!
# Zero padding between NALUs

A standard byte stream may carry any number of zero bytes before its first start code
(`leading_zero_8bits`) and behind every NALU (`trailing_zero_8bits`). The scanner takes one zero
in front of a 3-byte code for part of a 4-byte code; every other padding zero stays at the end of
the NALU in front of it. `pushAnnexBFrame_pad_iff` says which padding a push does not notice.
-/

namespace RtspPush

open Lib

/-- A unit of the stream with the number of zero bytes behind its NALU. -/
structure PaddedUnit extends AnnexBUnit where
  zeros : Nat

def zeroBytes (n : Nat) : List UInt8 := List.replicate n 0x00

/-- The stream with `lead` zero bytes in front and each unit's padding behind its NALU. -/
def pad (lead : Nat) (us : List PaddedUnit) : List UInt8 :=
  zeroBytes lead ++ us.flatMap fun u => u.code.bytes ++ (u.nal ++ zeroBytes u.zeros)

/-- The same units without any padding. -/
def unpad (us : List PaddedUnit) : List UInt8 := encode (us.map PaddedUnit.toAnnexBUnit)

/-- The padding behind each NALU that disappears: none, or the one zero that turns the 3-byte
code behind it into a 4-byte code. -/
def Absorbed : List PaddedUnit → Prop
  | [] => True
  | [u] => u.zeros = 0
  | u :: v :: us => (u.zeros = 0 ∨ u.zeros = 1 ∧ v.code = .short) ∧ Absorbed (v :: us)

def PaddedUnit.toStream (u : PaddedUnit) : StreamUnit := ⟨u.code, u.nal ++ zeroBytes u.zeros⟩

theorem pad_eq_assemble (lead : Nat) (us : List PaddedUnit) :
    pad lead us = zeroBytes lead ++ assemble (us.map PaddedUnit.toStream) := by
  simp only [pad, assemble, List.flatMap_map]
  rfl

/-! ## Padding adds no mark -/

theorem not_marked_zeroBytes (n : Nat) : ¬ Marked (zeroBytes n) := by
  intro h
  have hone : (1 : UInt8) ∈ zeroBytes n := h.subset (by simp)
  exact absurd (List.eq_of_mem_replicate hone) (by decide)

theorem not_marked_append_zeroBytes {nal : List UInt8} (h : ¬ Marked nal) (n : Nat) :
    ¬ Marked (nal ++ zeroBytes n) := by
  induction n with
  | zero => simpa [zeroBytes] using h
  | succ n ih =>
    have hsucc : nal ++ zeroBytes (n + 1) = nal ++ zeroBytes n ++ [0] := by
      simp [zeroBytes, List.replicate_succ']
    rw [hsucc]
    exact fun hm => ih hm.of_append_zero

theorem endsInZero_append_zeroBytes {nal : List UInt8} (h : ¬ EndsInZero nal) {n : Nat} :
    EndsInZero (nal ++ zeroBytes n) ↔ n ≠ 0 := by
  cases n with
  | zero => simpa [zeroBytes] using h
  | succ n => simp [EndsInZero, zeroBytes, List.replicate_succ']

/-! ## What is left of the padding -/

/-- The bytes queued for a NALU with `n` zeros behind it, given the unit that follows. -/
def trimmedNal (nal : List UInt8) (n : Nat) : List PaddedUnit → List UInt8
  | [] => nal ++ zeroBytes n
  | v :: _ => if v.code = .short ∧ n ≠ 0 then nal ++ zeroBytes (n - 1) else nal ++ zeroBytes n

theorem trimmedNal_cons (nal : List UInt8) (n : Nat) (v : PaddedUnit) (us : List PaddedUnit) :
    trimmedNal nal n (v :: us) =
      if v.code = .short ∧ n ≠ 0 then nal ++ zeroBytes (n - 1) else nal ++ zeroBytes n := rfl

theorem recut_fst_pad {nal : List UInt8} (h : ¬ EndsInZero nal) (n : Nat)
    (us : List PaddedUnit) :
    (recut (nal ++ zeroBytes n) (us.map PaddedUnit.toStream)).1 = trimmedNal nal n us := by
  cases us with
  | nil => rfl
  | cons v us =>
    rw [List.map_cons, recut_fst_cons]
    simp only [endsInZero_append_zeroBytes h, trimmedNal]
    have hcode : (PaddedUnit.toStream v).code = v.code := rfl
    rw [hcode]
    split
    · next hc =>
      obtain ⟨k, rfl⟩ : ∃ k, n = k + 1 := ⟨n - 1, by omega⟩
      simp [zeroBytes, List.replicate_succ', ← List.append_assoc]
    · rfl

/-- The queued NALUs of a padded stream. -/
def trimmedNals : List PaddedUnit → List (List UInt8)
  | [] => []
  | u :: us => trimmedNal u.nal u.zeros us :: trimmedNals us

theorem length_trimmedNals : ∀ us : List PaddedUnit, (trimmedNals us).length = us.length
  | [] => rfl
  | _ :: us => congrArg (· + 1) (length_trimmedNals us)

theorem recut_payloads_pad (us : List PaddedUnit) (pre : List UInt8) :
    (recut pre (us.map PaddedUnit.toStream)).2.map StreamUnit.payload = trimmedNals us := by
  induction us generalizing pre with
  | nil => rfl
  | cons u us ih =>
    rw [List.map_cons, recut_payloads_cons, ih]
    congr 1
    exact recut_fst_pad u.trimmed u.zeros us

theorem trimmedNal_ne_nil {nal : List UInt8} (h : nal ≠ []) (n : Nat) (us : List PaddedUnit) :
    trimmedNal nal n us ≠ [] := by
  cases us with
  | nil => simp [trimmedNal, h]
  | cons v us =>
    rw [trimmedNal_cons]
    split <;> simp [h]

theorem trimmedNals_ne_nil (us : List PaddedUnit) : ∀ nal ∈ trimmedNals us, nal ≠ [] := by
  induction us with
  | nil => simp [trimmedNals]
  | cons u us ih =>
    intro nal hnal
    rcases List.mem_cons.mp hnal with rfl | hnal
    · exact trimmedNal_ne_nil u.nonempty u.zeros us
    · exact ih nal hnal

theorem append_zeroBytes_eq_self {nal : List UInt8} {n : Nat} :
    nal ++ zeroBytes n = nal ↔ n = 0 := by
  simp [zeroBytes]

/-- Nothing of the padding is left exactly when it is absorbed. -/
theorem trimmedNals_eq_iff : ∀ (us : List PaddedUnit),
    trimmedNals us = us.map (·.nal) ↔ Absorbed us
  | [] => by simp [trimmedNals, Absorbed]
  | [u] => by
    rw [trimmedNals, trimmedNals, trimmedNal, Absorbed, List.map_singleton, List.cons.injEq,
      append_zeroBytes_eq_self]
    simp
  | u :: v :: us => by
    have ih := trimmedNals_eq_iff (v :: us)
    rw [trimmedNals, List.map_cons, List.cons.injEq, ih, Absorbed]
    refine and_congr_left fun _ => ?_
    rw [trimmedNal_cons]
    split
    · next hc =>
      rw [append_zeroBytes_eq_self]
      constructor
      · intro h
        exact Or.inr ⟨by omega, hc.1⟩
      · rintro (h | ⟨h, -⟩) <;> omega
    · next hc =>
      rw [append_zeroBytes_eq_self]
      constructor
      · exact Or.inl
      · rintro (h | ⟨h, hshort⟩)
        · exact h
        · exact absurd ⟨hshort, by omega⟩ hc

namespace H264FrameQueue

/-- The NALUs a push produces for a padded stream with at least one unit. -/
theorem producedNalus_pad {us : List PaddedUnit} (h : us ≠ []) (lead : Nat) :
    producedNalus (some (pad lead us)) = trimmedNals us := by
  have hcanon : Canonical (recut (zeroBytes lead) (us.map PaddedUnit.toStream)).1
      (recut (zeroBytes lead) (us.map PaddedUnit.toStream)).2 := by
    refine recut_canonical (not_marked_zeroBytes lead) fun u hu => ?_
    obtain ⟨v, -, rfl⟩ := List.mem_map.mp hu
    exact not_marked_append_zeroBytes v.unmarked v.zeros
  have hprod := producedNalus_canonical hcanon
  have hfilter : (trimmedNals us).filter (· ≠ []) = trimmedNals us := by
    rw [List.filter_eq_self]
    intro nal hnal
    simpa using trimmedNals_ne_nil us nal hnal
  have hnals : trimmedNals us ≠ [] := by
    cases us with
    | nil => exact absurd rfl h
    | cons u us => simp [trimmedNals]
  have hbytes : zeroBytes lead ++ assemble (us.map PaddedUnit.toStream) ≠ [] := by
    cases us with
    | nil => exact absurd rfl h
    | cons u us =>
      intro hnil
      have hmark := marked_assemble (zeroBytes lead) u.toStream (us.map PaddedUnit.toStream)
      rw [← List.map_cons, hnil] at hmark
      exact not_marked_nil hmark
  rw [recut_bytes, recut_payloads_pad, hfilter, if_neg hbytes, if_neg hnals] at hprod
  rw [pad_eq_assemble, hprod]

/-- The padding that leaves no trace: zeros before the first start code, and behind a NALU only
the single zero in front of a 3-byte start code. -/
def Unnoticed (lead : Nat) (us : List PaddedUnit) : Prop := (us = [] → lead = 0) ∧ Absorbed us

theorem producedNalus_pad_iff (lead : Nat) (us : List PaddedUnit) :
    producedNalus (some (pad lead us)) = producedNalus (some (unpad us)) ↔ Unnoticed lead us := by
  unfold Unnoticed
  by_cases hus : us = []
  · subst hus
    cases lead with
    | zero => simp [pad, unpad, encode, zeroBytes, Absorbed]
    | succ lead =>
      have hzeros : pad (lead + 1) [] ≠ [] := by simp [pad, zeroBytes]
      have hprod : producedNalus (some (pad (lead + 1) [])) ≠ [] := by
        rw [Ne, producedNalus_eq_nil_iff, nothingToPush_iff]
        simpa using hzeros
      simpa [unpad, encode, producedNalus] using hprod
  · have hne : us.map PaddedUnit.toAnnexBUnit ≠ [] := by simpa using hus
    rw [producedNalus_pad hus, unpad, producedNalus_encode hne, List.map_map]
    simp only [hus, false_implies, true_and]
    exact trimmedNals_eq_iff us

/-- A padded stream is at most one NALU per unit, or the one of a buffer of zeros. -/
theorem length_producedNalus_pad_le (lead : Nat) (us : List PaddedUnit) :
    (producedNalus (some (pad lead us))).length ≤ max 1 us.length := by
  by_cases hus : us = []
  · subst hus
    have hspans : splitAnnexB (pad lead []) = [] := by
      have hcanon : Canonical (pad lead []) [] := by
        simpa [pad, Canonical] using not_marked_zeroBytes lead
      simpa [spansFrom] using splitAnnexB_canonical hcanon
    simp only [producedNalus, hspans, if_true]
    split <;> simp
  · rw [producedNalus_pad hus, length_trimmedNals]
    exact Nat.le_max_right 1 us.length

/-- Without padding it is one NALU per unit. -/
theorem length_producedNalus_unpad_le (us : List PaddedUnit) :
    (producedNalus (some (unpad us))).length ≤ max 1 us.length := by
  by_cases hus : us = []
  · simp [hus, unpad, encode, producedNalus]
  · have hne : us.map PaddedUnit.toAnnexBUnit ≠ [] := by simpa using hus
    rw [unpad, producedNalus_encode hne, List.length_map, List.length_map]
    exact Nat.le_max_right 1 us.length

/-- **Which padding a push does not notice.** The NALUs that a push of the padded stream queues, one
behind the other, are those of the stream without padding exactly if the padding is `Unnoticed`.
Then the two pushes do the same to every queue; and where nothing is evicted the queues differ
behind any other padding. -/
theorem pushAnnexBFrame_pad_iff (lead : Nat) (us : List PaddedUnit) :
    (producedNalus (some (pad lead us)) = producedNalus (some (unpad us)) ↔ Unnoticed lead us) ∧
      ∀ (q : H264FrameQueue) (timestampUs : UInt64),
        (Unnoticed lead us → q.pushAnnexBFrame (some (pad lead us)) timestampUs =
          q.pushAnnexBFrame (some (unpad us)) timestampUs) ∧
        (q.queue.length + max 1 us.length ≤ q.maxQueuedNalus →
          ((q.pushAnnexBFrame (some (pad lead us)) timestampUs).1.queue =
            (q.pushAnnexBFrame (some (unpad us)) timestampUs).1.queue ↔ Unnoticed lead us)) := by
  have hiff := producedNalus_pad_iff lead us
  refine ⟨hiff, fun q timestampUs => ⟨fun h => ?_, fun hroom => ?_⟩⟩
  · have hproduced := hiff.mpr h
    have hnothing : nothingToPush (some (pad lead us)) = nothingToPush (some (unpad us)) := by
      rw [Bool.eq_iff_iff, ← producedNalus_eq_nil_iff, ← producedNalus_eq_nil_iff, hproduced]
    refine Prod.ext ?_ ?_
    · rw [pushAnnexBFrame_fst, pushAnnexBFrame_fst, hproduced]
    · rw [pushAnnexBFrame_snd, pushAnnexBFrame_snd, hnothing]
  · have hpad := length_producedNalus_pad_le lead us
    have hunpad := length_producedNalus_unpad_le us
    rw [q.pushAnnexBFrame_queue_of_room (by omega), q.pushAnnexBFrame_queue_of_room (by omega),
      List.append_cancel_left_eq, ← hiff]
    exact (List.map_injective_iff.mpr fun a b h => (Nalu.mk.inj h).1).eq_iff

/-- One zero behind the last NALU, `00 00 01 65 00`, is queued as part of it. -/
theorem trailing_zero_queued :
    ∃ lead us, ((new.pushAnnexBFrame (some (pad lead us)) 0).1.queue.map Nalu.data) ≠
      (new.pushAnnexBFrame (some (unpad us)) 0).1.queue.map Nalu.data :=
  ⟨0, [⟨⟨.short, [0x65], by decide, by decide, by decide⟩, 1⟩], by decide⟩

end H264FrameQueue

end RtspPush
