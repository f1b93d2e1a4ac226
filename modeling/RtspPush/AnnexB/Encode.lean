import RtspPush.AnnexB.Split

/-!
# Splitting undoes Annex-B encoding

`encode` is the format that the push interface documents: NALUs one after the other, each behind
a 3-byte or a 4-byte start code. A NALU carries what makes its encoding readable: it is not
empty, holds no `00 00 01` and does not end in a zero. `splitAnnexB` gives the NALUs back.
-/

namespace RtspPush

open Lib

/-- A NALU that a standard encoder may write, with the start code in front of it. -/
structure AnnexBUnit where
  code : StartCode
  nal : List UInt8
  nonempty : nal ≠ []
  unmarked : ¬ Marked nal
  trimmed : ¬ EndsInZero nal

/-- The unit as a stretch of the byte stream. -/
def AnnexBUnit.toStream (u : AnnexBUnit) : StreamUnit := ⟨u.code, u.nal⟩

/-- The Annex-B encoding of a list of NALUs. -/
def encode (us : List AnnexBUnit) : List UInt8 :=
  us.flatMap fun u => u.code.bytes ++ u.nal

theorem encode_eq_assemble (us : List AnnexBUnit) :
    encode us = assemble (us.map AnnexBUnit.toStream) := by
  simp only [encode, assemble, List.flatMap_map]
  rfl

theorem encode_ne_nil {us : List AnnexBUnit} (h : us ≠ []) : encode us ≠ [] := by
  cases us with
  | nil => exact absurd rfl h
  | cons u us => cases hc : u.code <;> simp [encode, hc, StartCode.bytes]

/-- An encoding is canonical behind any segment that holds no mark and does not end in a zero:
no NALU can lend a zero to the start code behind it. -/
theorem canonical_encode :
    ∀ (us : List AnnexBUnit) {pre : List UInt8}, ¬ Marked pre → ¬ EndsInZero pre →
      Canonical pre (us.map AnnexBUnit.toStream)
  | [], _, hm, _ => hm
  | u :: us, _, hm, hz => ⟨hm, fun _ => hz, canonical_encode us u.unmarked u.trimmed⟩

/-- The spans of an encoding hold the NALUs. -/
theorem splitAnnexB_encode_bytes (us : List AnnexBUnit) :
    (splitAnnexB (encode us)).map (NalSpan.bytes (encode us)) = us.map AnnexBUnit.nal := by
  have h := splitAnnexB_bytes (canonical_encode us not_marked_nil not_endsInZero_nil)
  have hpayload : StreamUnit.payload ∘ AnnexBUnit.toStream = AnnexBUnit.nal := rfl
  rw [List.nil_append, ← encode_eq_assemble, List.map_map, hpayload] at h
  rw [h, List.filter_eq_self]
  intro nal hnal
  obtain ⟨u, -, rfl⟩ := List.mem_map.mp hnal
  simpa using u.nonempty

/-- **Splitting undoes encoding**: one span for each NALU, and the bytes of the `i`-th span are
the `i`-th NALU. -/
theorem splitAnnexB_encode (us : List AnnexBUnit) :
    (splitAnnexB (encode us)).length = us.length ∧
      ∀ i : Nat, (splitAnnexB (encode us))[i]?.map (NalSpan.bytes (encode us)) =
        us[i]?.map AnnexBUnit.nal := by
  have h := splitAnnexB_encode_bytes us
  constructor
  · have hlen := congrArg List.length h
    simpa only [List.length_map] using hlen
  · intro i
    have hi := congrArg (fun l : List (List UInt8) => l[i]?) h
    simpa only [List.getElem?_map] using hi

end RtspPush
