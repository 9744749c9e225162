/-
**NAL units aggregated in one packet.**

`build_stapa` and `parse_stapa` of `crates/protocols/src/rtp.rs`: a STAP-A payload is an indicator and
the NAL units, each after its size in two bytes.  The writer casts the length of a NAL unit to these
two bytes without a look at it.  What the reader accepts is therefore always what it was read from,
but what the writer wrote is read back only if every length fits.

Main definitions:

* `Rtp.buildStapa`, `Rtp.parseStapa` — the writer and the reader;
* `Rtp.sizedUnits` — NAL units with their sizes.

Main results:

* `Rtp.stapaLoop_eq_ok_iff` — **what the reader accepts**;
* `Rtp.stapa_roundTrip_iff` — when the writer's payload is read back, and that the reader's always is
  what was read.
-/

import MibeeEye.RtpSerialization

set_option relaxedAutoImplicit false
set_option autoImplicit false

namespace Rtp

open Wire RtpPacket

/-! ### The writer and the reader -/

/-- NAL units, each after its size as a `u16`. -/
def sizedUnits (nals : List (List UInt8)) : List UInt8 :=
  nals.flatMap fun nal => beBytes 2 nal.length ++ nal

/-- The loop of `parse_stapa` from an offset. -/
@[grind =] def stapaLoop (payload : List UInt8) (offset : ℕ) : Except String (List (List UInt8)) :=
  if _h : offset < payload.length then
    if payload.length < offset + 2 then
      .error s!"STAP-A truncated: missing 16-bit NAL size at offset {offset}"
    else
      let nalSize := (u16At payload offset).toNat
      let start := offset + 2
      if nalSize = 0 then .error s!"STAP-A: zero-length NAL unit at offset {offset}"
      else if payload.length < start + nalSize then
        let remaining := payload.length - start
        .error s!"STAP-A truncated: NAL size {nalSize} at offset {start} exceeds remaining data {remaining}"
      else
        (stapaLoop payload (start + nalSize)).map fun nals =>
          slice payload start (start + nalSize) :: nals
  else .ok []
termination_by payload.length - offset

/-- **`parse_stapa`.** -/
def parseStapa (payload : List UInt8) : Except String (List (List UInt8)) :=
  match payload with
  | [] => .error "Empty STAP-A payload"
  | indicator :: _ =>
      let stapType := indicator &&& 0x1F
      if stapType ≠ 24 then .error s!"Not a STAP-A payload: NAL type {stapType}"
      else stapaLoop payload 1

/-- The loop of `build_stapa` over the NAL units, from number `i` on: none is empty, and all have the
importance of the first. -/
@[grind =] def checkNri (nalRefIdc : UInt8) : ℕ → List (List UInt8) → Except String Unit
  | _, [] => .ok ()
  | i, [] :: _ => .error s!"STAP-A: NAL unit {i} is empty"
  | i, (first :: _) :: nalus =>
      let refIdc := (first >>> 5) &&& 0x03
      if refIdc ≠ nalRefIdc then
        .error s!"STAP-A: NAL unit {i} has nal_ref_idc {refIdc} but expected {nalRefIdc} (all NALs must share the same NRI)"
      else checkNri nalRefIdc (i + 1) nalus

/-- **`build_stapa`.** -/
def buildStapa (nalus : List (List UInt8)) : Except String (List UInt8) :=
  match nalus with
  | [] => .error "Cannot build STAP-A from empty NAL list"
  | [] :: _ => .error "Empty NAL unit 0 in STAP-A"
  | (first :: _) :: _ =>
      let nalRefIdc := (first >>> 5) &&& 0x03
      match checkNri nalRefIdc 0 nalus with
      | .error e => .error e
      | .ok () => .ok (((nalRefIdc <<< 5) ||| 24) :: sizedUnits nalus)

/-! ### What the reader accepts -/

theorem sizedUnits_cons (nal : List UInt8) (nals : List (List UInt8)) :
    sizedUnits (nal :: nals) = beBytes 2 nal.length ++ (nal ++ sizedUnits nals) := by
  rw [sizedUnits, List.flatMap_cons, List.append_assoc]
  rfl

/-- What the reader makes of the bytes it is at: NAL units with their sizes, none of them empty or too
long for its size. -/
theorem drop_of_stapaLoop {payload : List UInt8} {nals : List (List UInt8)} {offset : ℕ}
    (h : stapaLoop payload offset = .ok nals) :
    payload.drop offset = sizedUnits nals ∧ ∀ nal ∈ nals, nal ≠ [] ∧ nal.length ≤ 65535 := by
  induction hn : payload.length - offset using Nat.strong_induction_on generalizing nals offset with
  | _ n ih =>
      subst hn
      rw [stapaLoop] at h
      by_cases hoffset : offset < payload.length
      · rw [dif_pos hoffset] at h
        split at h
        · cases h
        rename_i htwo
        dsimp only at h
        split at h
        · cases h
        rename_i hsize
        split at h
        · cases h
        rename_i hfits
        -- the size, and the NAL unit behind it
        have hlt := (u16At payload offset).toNat_lt
        have htwobytes := @drop_eq_u16At payload offset (by omega)
        set nalSize := (u16At payload offset).toNat
        have hlen : (slice payload (offset + 2) (offset + 2 + nalSize)).length = nalSize := by
          rw [slice, List.length_take, List.length_drop]
          omega
        cases hrest : stapaLoop payload (offset + 2 + nalSize) with
        | error e =>
            rw [hrest] at h
            cases h
        | ok rest =>
            rw [hrest] at h
            cases h
            obtain ⟨hdrop, hall⟩ := ih _ (by omega) hrest rfl
            constructor
            · rw [sizedUnits_cons, hlen, ← hdrop, htwobytes, slice, Nat.add_sub_cancel_left,
                ← @List.drop_drop _ nalSize (offset + 2), List.take_append_drop]
            · intro nal hnal
              rcases List.mem_cons.mp hnal with rfl | hnal
              · refine ⟨fun hnil => ?_, by omega⟩
                rw [hnil, List.length_nil] at hlen
                omega
              · exact hall nal hnal
      · rw [dif_neg hoffset] at h
        cases h
        exact ⟨List.drop_eq_nil_of_le (not_lt.mp hoffset), fun nal hnal => (by cases hnal)⟩

/-- Such bytes are read. -/
theorem stapaLoop_of_drop {payload : List UInt8} {nals : List (List UInt8)} {offset : ℕ}
    (hnals : ∀ nal ∈ nals, nal ≠ [] ∧ nal.length ≤ 65535)
    (h : payload.drop offset = sizedUnits nals) : stapaLoop payload offset = .ok nals := by
  induction nals generalizing offset with
  | nil =>
      rw [stapaLoop, dif_neg (not_lt.mpr (List.drop_eq_nil_iff.mp h))]
  | cons nal nals ih =>
      obtain ⟨hne, hle⟩ := hnals nal List.mem_cons_self
      have hpos := List.length_pos_iff.mpr hne
      rw [sizedUnits_cons] at h
      have hlen := congrArg List.length h
      simp only [List.length_drop, List.length_append, length_beBytes] at hlen
      have hlt : nal.length < 2 ^ 16 := by omega
      have hnat : (UInt16.ofNat nal.length).toNat = nal.length := UInt16.toNat_ofNat_of_lt' hlt
      have hsize : (u16At payload offset).toNat = nal.length := by
        rw [@u16At_eq payload offset (UInt16.ofNat nal.length) _ (by rw [hnat]; exact h), hnat]
      have hnal : payload.drop (offset + 2) = nal ++ sizedUnits nals := by
        rw [← List.drop_drop, h, List.drop_left' (length_beBytes 2 _)]
      have hrest : payload.drop (offset + 2 + nal.length) = sizedUnits nals := by
        rw [← List.drop_drop, hnal, List.drop_left]
      rw [stapaLoop, dif_pos (by omega), if_neg (by omega)]
      dsimp only
      rw [hsize, if_neg (by omega), if_neg (by omega),
        ih (fun n hn => hnals n (List.mem_cons_of_mem _ hn)) hrest, slice, Nat.add_sub_cancel_left,
        hnal, List.take_left]
      rfl

/-- **What the reader accepts from an offset on.** -/
theorem stapaLoop_eq_ok_iff {payload : List UInt8} {nals : List (List UInt8)} {offset : ℕ} :
    stapaLoop payload offset = .ok nals ↔
      payload.drop offset = sizedUnits nals ∧ ∀ nal ∈ nals, nal ≠ [] ∧ nal.length ≤ 65535 :=
  ⟨drop_of_stapaLoop, fun h => stapaLoop_of_drop h.2 h.1⟩

/-! ### Written and read back -/

/-- The indicator that is written is one of an aggregation. -/
theorem stapIndicator_type (first : UInt8) :
    ((((first >>> 5) &&& 0x03) <<< 5) ||| 24) &&& 0x1F = 24 := by
  revert first
  refine forall_byte ?_
  decide +kernel

theorem ne_nil_of_checkNri {nalRefIdc : UInt8} {nals : List (List UInt8)} {i : ℕ}
    (h : checkNri nalRefIdc i nals = .ok ()) : ∀ nal ∈ nals, nal ≠ [] := by
  induction nals generalizing i with
  | nil => exact fun nal hnal => (by cases hnal)
  | cons nal nals ih =>
      cases nal with
      | nil => cases h
      | cons first rest =>
          rw [checkNri] at h
          split at h
          · cases h
          · intro nal hnal
            rcases List.mem_cons.mp hnal with rfl | hnal
            · exact List.cons_ne_nil _ _
            · exact ih h nal hnal

/-- What the writer makes of NAL units that it accepts. -/
theorem buildStapa_eq_ok {nals : List (List UInt8)} {payload : List UInt8}
    (h : buildStapa nals = .ok payload) :
    (∀ nal ∈ nals, nal ≠ []) ∧
      ∃ indicator, payload = indicator :: sizedUnits nals ∧ indicator &&& 0x1F = 24 := by
  unfold buildStapa at h
  split at h
  · cases h
  · cases h
  · rename_i first _ _
    dsimp only at h
    split at h
    · cases h
    · rename_i hcheck
      cases h
      exact ⟨ne_nil_of_checkNri hcheck, _, rfl, stapIndicator_type first⟩

/-- **When an aggregated payload is read back**: every NAL unit has at most 65535 bytes; and whatever
payload is read, the NAL units with their sizes are that payload without its indicator. -/
theorem stapa_roundTrip_iff (nals : List (List UInt8)) (payload : List UInt8) :
    (buildStapa nals = .ok payload →
      (parseStapa payload = .ok nals ↔ ∀ nal ∈ nals, nal.length ≤ 65535)) ∧
    (parseStapa payload = .ok nals → sizedUnits nals = payload.tail) := by
  constructor
  · intro h
    obtain ⟨hne, indicator, rfl, htype⟩ := buildStapa_eq_ok h
    rw [parseStapa, if_neg (not_not.mpr htype), stapaLoop_eq_ok_iff, List.drop_one, List.tail_cons]
    exact ⟨fun hread nal hnal => (hread.2 nal hnal).2,
      fun hle => ⟨rfl, fun nal hnal => ⟨hne nal hnal, hle nal hnal⟩⟩⟩
  · intro h
    unfold parseStapa at h
    split at h
    · cases h
    · dsimp only at h
      split at h
      · cases h
      · rw [stapaLoop_eq_ok_iff, List.drop_one] at h
        exact h.1.symm

theorem stapa_roundTrip_iff_two :
    (parseStapa [0x78, 0, 2, 0x67, 0x42, 0, 1, 0x68] = .ok [[0x67, 0x42], [0x68]] ↔
      ∀ nal ∈ [[(0x67 : UInt8), 0x42], [0x68]], nal.length ≤ 65535) ∧
    sizedUnits [[0x67, 0x42], [0x68]] = [0, 2, 0x67, 0x42, 0, 1, 0x68] := by
  have hboth := stapa_roundTrip_iff [[0x67, 0x42], [0x68]]
    [0x78, 0, 2, 0x67, 0x42, 0, 1, 0x68]
  have hread := hboth.1 (by rfl)
  exact ⟨hread, hboth.2 (hread.mpr (by decide))⟩

/-- A NAL unit of 65536 bytes is written with the size zero. -/
theorem oversized_not_readBack :
    ∃ payload, buildStapa [0x67 :: List.replicate 65535 0] = .ok payload ∧
      parseStapa payload ≠ .ok [0x67 :: List.replicate 65535 0] := by
  refine ⟨0x78 :: sizedUnits [0x67 :: List.replicate 65535 0], rfl, fun h => ?_⟩
  have htype : ¬ ((0x78 : UInt8) &&& 0x1F ≠ 24) := by decide
  rw [parseStapa, if_neg htype, stapaLoop_eq_ok_iff] at h
  have hle := (h.2 _ List.mem_cons_self).2
  rw [List.length_cons, List.length_replicate] at hle
  omega

end Rtp
