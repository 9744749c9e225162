/-
**AMF0: typed objects.**

In AMF0 a typed object is a class name and the entries of an object with their end.  The loop of
`Amf0Value::parse` over the entries consumes that end, and `parse_typed_object` then looks for
another one.  So the code reads a typed object only if an object end follows it, and takes that too.

Within other values this goes on: a typed object takes the end of the object it stands last in, this
object the end of the next, and so on.  Whatever AMF0 means by some bytes, the code either reads the
same bytes for the same value, or these and some object ends behind them.  A typed object is thus
never read up to its end, however deep its entries nest.

Main definitions:

* `Rtmp.Amf0Value.ends` — a number of object ends.

Main results:

* `Rtmp.Amf0Value.parse_typedObject` — what is made of a typed object;
* `Rtmp.Amf0Value.Encodes.ahead` — **the code reads as many bytes as AMF0 has, and some ends more**;
* `Rtmp.Amf0Value.parse_typedObject_ne` — **a typed object is never read up to its end**.
-/

import MibeeEye.RtmpAmf0RoundTrip

set_option relaxedAutoImplicit false
set_option autoImplicit false

namespace Rtmp

namespace Amf0Value

open Wire

/-! ### One typed object -/

/-- What is made of a typed object: three more bytes are looked at, and must be an object end. -/
theorem parse_typedObject {className : String} {entries : List (String × Amf0Value)}
    {w : List UInt8} (r : List UInt8) (hname : (asBytes className).length ≤ 65535)
    (hentries : EncodesEntries (2 ^ 32 - 1) objectEnd entries w) :
    parse (amf0TypedObject :: (serializeStr className ++ (w ++ r))) =
      if r.length < 3 then .error "Insufficient data for AMF0 typed object end marker"
      else if r.take 3 ≠ objectEnd then .error "Invalid AMF0 typed object end marker"
      else .ok (object entries,
        (amf0TypedObject :: (serializeStr className ++ w)).length + 3) := by
  have hfuel : (w ++ r).length < (serializeStr className ++ (w ++ r)).length + 1 := by
    simp only [List.length_append]
    omega
  have hslice : slice (w ++ r) w.length (w.length + 3) = r.take 3 := by
    rw [slice, List.drop_left, Nat.add_sub_cancel_left]
  rw [parse, List.length_cons,
    parseF_typedObject hname (parseObjectEntries_of_encodes (by omega) hentries r _ hfuel), hslice]
  have hshort : (w ++ r).length < w.length + 3 ↔ r.length < 3 := by
    rw [List.length_append]
    omega
  have htotal : 1 + 2 + (asBytes className).length + w.length + 3 =
      (amf0TypedObject :: (serializeStr className ++ w)).length + 3 := by
    rw [List.length_cons, List.length_append, length_serializeStr]
    omega
  rw [htotal]
  simp only [hshort]

/-- The class name and the entries are empty: read to the end, and three bytes further. -/
theorem typedObject_not_read :
    parse [0x10, 0x00, 0x00, 0x00, 0x00, 0x09] ≠ .ok (object [], 6) ∧
      parse ([0x10, 0x00, 0x00, 0x00, 0x00, 0x09] ++ [0x00, 0x00, 0x09]) = .ok (object [], 9) := by
  constructor
  · intro h
    have herror : parse [0x10, 0x00, 0x00, 0x00, 0x00, 0x09] =
        .error "Insufficient data for AMF0 typed object end marker" :=
      @parse_typedObject "" [] objectEnd [] (by decide) .done
    rw [h] at herror
    cases herror
  · exact @parse_typedObject "" [] objectEnd [0x00, 0x00, 0x09] (by decide) .done

/-! ### Object ends -/

/-- A number of object ends. -/
@[grind =] def ends : ℕ → List UInt8
  | 0 => []
  | k + 1 => objectEnd ++ ends k

@[simp] theorem ends_zero : ends 0 = [] := rfl

theorem ends_add (j k : ℕ) : ends (j + k) = ends j ++ ends k := by
  induction j with
  | zero => rw [Nat.zero_add]; rfl
  | succ j ih => rw [Nat.succ_add, ends, ih, ends, List.append_assoc]

theorem ends_succ_eq (k : ℕ) : ends (k + 1) = ends k ++ objectEnd := by
  rw [ends_add]
  rfl

/-- Object ends move through object ends. -/
theorem ends_comm (j k : ℕ) : ends j ++ ends k = ends k ++ ends j := by
  rw [← ends_add, ← ends_add, Nat.add_comm]

/-- Bytes that are found again behind object ends are object ends, if their number allows it. -/
theorem eq_ends_of_append {j q : ℕ} {x s t : List UInt8} (hlen : x.length = 3 * q) (hj : j ≠ 0)
    (h : x ++ s = ends j ++ (x ++ t)) : x = ends q := by
  obtain ⟨j, rfl⟩ := Nat.exists_eq_succ_of_ne_zero hj
  induction q generalizing x with
  | zero => exact List.eq_nil_of_length_eq_zero hlen
  | succ q ih =>
      have hsplit : x = x.take 3 ++ x.drop 3 := (List.take_append_drop 3 x).symm
      have htake : (x.take 3).length = objectEnd.length := by
        rw [List.length_take, length_objectEnd]
        omega
      rw [hsplit, ends, List.append_assoc, List.append_assoc] at h
      obtain ⟨hend, hrest⟩ := List.append_inj h htake
      have hnext : x.drop 3 ++ s = ends (j + 1) ++ (x.drop 3 ++ t) := by
        rw [hrest, hend, ends_succ_eq]
        simp only [List.append_assoc]
      rw [hsplit, hend, ih (by rw [List.length_drop]; omega) hnext, ends]

/-- Bytes that begin with another byte than an object end have none before them. -/
theorem eq_zero_of_append {j : ℕ} {b : UInt8} {x s : List UInt8} (hb : b ≠ 0x00)
    (h : b :: x = ends j ++ s) : j = 0 := by
  cases j with
  | zero => rfl
  | succ j => exact absurd (List.cons.inj h).1 hb

/-! ### Two readings of the same bytes -/

/-- Texts with their lengths that begin the same bytes are the same. -/
theorem serializeStr_append_inj {a b : String} {p q : List UInt8}
    (ha : (asBytes a).length ≤ 65535) (hb : (asBytes b).length ≤ 65535)
    (h : serializeStr a ++ p = serializeStr b ++ q) : serializeStr a = serializeStr b ∧ p = q := by
  have hlen : (asBytes a).length = (asBytes b).length := by
    rw [← ofBe_take_serializeStr ha p, h, ofBe_take_serializeStr hb q]
  exact List.append_inj h (by rw [length_serializeStr, length_serializeStr, hlen])

/-- Readings of the same length. -/
theorem ahead_of_length {x y s t : List UInt8} (hlen : x.length = y.length)
    (h : x ++ s = ends 0 ++ (y ++ t)) : ∃ k, ends 0 ++ y = x ++ ends k := by
  have hsame : x ++ s = y ++ t := h
  obtain ⟨rfl, -⟩ := List.append_inj hsame hlen
  exact ⟨0, (List.append_nil x).symm⟩

/-- The entries of two typed objects in the same bytes. -/
theorem typedObject_inj {a b : String} {x y s t : List UInt8}
    (ha : (asBytes a).length ≤ 65535) (hb : (asBytes b).length ≤ 65535)
    (h : amf0TypedObject :: (serializeStr a ++ x) ++ s =
      ends 0 ++ (amf0TypedObject :: (serializeStr b ++ (y ++ objectEnd)) ++ t)) :
    serializeStr a = serializeStr b ∧ x ++ s = ends 0 ++ (y ++ (objectEnd ++ t)) := by
  refine serializeStr_append_inj ha hb ?_
  simpa only [ends_zero, List.nil_append, List.cons_append, List.append_assoc, List.cons.injEq,
    true_and] using h

/-- No object end stands before an entry: it would be an empty key without a value. -/
theorem eq_zero_of_entry {m j : ℕ} {key : String} {value : Amf0Value} {w x s : List UInt8}
    (hkey : (asBytes key).length ≤ 65535) (hvalue : Encodes m [] value w)
    (h : serializeStr key ++ (w ++ x) = ends j ++ s) : j = 0 := by
  cases j with
  | zero => rfl
  | succ j =>
      have hlen : (asBytes key).length = 0 := by
        rw [← ofBe_take_serializeStr hkey (w ++ x), h]
        rfl
      obtain ⟨marker, body, rfl, hmarker⟩ := hvalue.eq_cons
      rw [serializeStr, List.eq_nil_of_length_eq_zero hlen] at h
      have hmarkers := (List.cons.inj (List.cons.inj (List.cons.inj h).2).2).1
      exact absurd hmarkers hmarker

/-- Readings after the same bytes. -/
theorem ahead_append {x y s t p : List UInt8}
    (ih : x ++ s = ends 0 ++ (y ++ t) → ∃ k, ends 0 ++ y = x ++ ends k)
    (h : p ++ x ++ s = ends 0 ++ (p ++ y ++ t)) : ∃ k, ends 0 ++ (p ++ y) = p ++ x ++ ends k := by
  rw [List.append_assoc, List.append_assoc] at h
  obtain ⟨k, hk⟩ := ih (List.append_cancel_left (h : p ++ (x ++ s) = p ++ (y ++ t)))
  exact ⟨k, by rw [List.append_assoc]; exact congrArg (p ++ ·) hk⟩

mutual

/-- **What AMF0 and the code read for one value**: behind any number of object ends that the code has
already taken, it reads the bytes that AMF0 has for the value, and is ahead by object ends again. -/
theorem Encodes.ahead {m n : ℕ} : ∀ {v : Amf0Value} {x : List UInt8}, Encodes m [] v x →
    ∀ {v' : Amf0Value} {y s t : List UInt8} {j : ℕ}, Encodes n objectEnd v' y → v = v' →
      x ++ s = ends j ++ (y ++ t) → ∃ k, ends j ++ y = x ++ ends k
  | _, _, .number bits, _, _, _, _, j, hy, hv, h => by
      cases hy with
      | number bits' =>
          cases hv
          by_cases hj : j = 0
          · subst hj
            exact ahead_of_length rfl h
          · -- the bytes of the number are object ends themselves
            have hends := @eq_ends_of_append j 3 _ _ _ (by simp) hj h
            exact ⟨j, by rw [hends, ends_comm]⟩
      | _ => cases hv
  | _, _, .boolean b, _, _, _, _, _, hy, hv, h => by
      cases eq_zero_of_append (by decide) h
      cases hy with
      | boolean b' => exact ahead_of_length rfl h
      | _ => exact absurd (List.cons.inj h).1 (by decide)
  | _, _, .string s hs, _, _, _, _, _, hy, hv, h => by
      cases eq_zero_of_append (by decide) h
      cases hy with
      | string s' hs' =>
          cases hv
          exact ahead_of_length rfl h
      | _ => exact absurd (List.cons.inj h).1 (by decide)
  | _, _, .null, _, _, _, _, _, hy, hv, h => by
      cases eq_zero_of_append (by decide) h
      cases hy with
      | null => exact ahead_of_length rfl h
      | _ => exact absurd (List.cons.inj h).1 (by decide)
  | _, _, .undefined, _, _, _, _, _, hy, hv, h => by
      cases eq_zero_of_append (by decide) h
      cases hy with
      | undefined => exact ahead_of_length rfl h
      | _ => exact absurd (List.cons.inj h).1 (by decide)
  | _, _, .date ms tz htz, _, _, _, _, _, hy, hv, h => by
      cases eq_zero_of_append (by decide) h
      cases hy with
      | date ms' tz' htz' => exact ahead_of_length (by simp) h
      | _ => exact absurd (List.cons.inj h).1 (by decide)
  | _, _, .longString s hs, _, _, _, _, _, hy, hv, h => by
      cases eq_zero_of_append (by decide) h
      cases hy with
      | longString s' hs' =>
          cases hv
          exact ahead_of_length rfl h
      | _ => exact absurd (List.cons.inj h).1 (by decide)
  | _, _, .xml s hs, _, _, _, _, _, hy, hv, h => by
      cases eq_zero_of_append (by decide) h
      cases hy with
      | xml s' hs' =>
          cases hv
          exact ahead_of_length rfl h
      | _ => exact absurd (List.cons.inj h).1 (by decide)
  | _, _, .object hentries, _, _, _, _, _, hy, hv, h => by
      cases eq_zero_of_append (by decide) h
      cases hy with
      | object hentries' =>
          cases hv
          exact @ahead_append _ _ _ _ [amf0Object] (hentries.ahead hentries') h
      | _ => exact absurd (List.cons.inj h).1 (by decide)
  | _, _, .ecmaArray hcount hentries, _, _, _, _, _, hy, hv, h => by
      cases eq_zero_of_append (by decide) h
      cases hy with
      | ecmaArray hcount' hentries' =>
          cases hv
          exact @ahead_append _ _ _ _ (amf0EcmaArray :: beBytes 4 _) (hentries.ahead hentries') h
      | _ => exact absurd (List.cons.inj h).1 (by decide)
  | _, _, .strictArray hcount hitems, _, _, _, _, _, hy, hv, h => by
      cases eq_zero_of_append (by decide) h
      cases hy with
      | strictArray hcount' hitems' =>
          obtain ⟨-, rfl⟩ := ecmaArray.inj hv
          exact @ahead_append _ _ _ _ (amf0StrictArray :: beBytes 4 _) (hitems.ahead hitems') h
      | _ => exact absurd (List.cons.inj h).1 (by decide)
  | _, _, .typedObject className hname hentries, _, _, _, _, _, hy, hv, h => by
      cases eq_zero_of_append (by decide) h
      cases hy with
      | typedObject className' hname' hentries' =>
          cases hv
          rw [List.append_nil] at h ⊢
          obtain ⟨hnames, hrest⟩ := typedObject_inj hname hname' h
          obtain ⟨k, hk⟩ := hentries.ahead (j := 0) hentries' hrest
          -- the end that the code looks for in addition
          rw [ends_zero, List.nil_append] at hk
          refine ⟨k + 1, ?_⟩
          rw [hk, ends_succ_eq, hnames]
          simp only [ends_zero, List.nil_append, List.cons_append, List.append_assoc]
      | _ => exact absurd (List.cons.inj h).1 (by decide)

theorem EncodesEntries.ahead {m n : ℕ} : ∀ {entries : List (String × Amf0Value)} {x : List UInt8},
    EncodesEntries m [] entries x → ∀ {y s t : List UInt8} {j : ℕ},
      EncodesEntries n objectEnd entries y → x ++ s = ends j ++ (y ++ t) →
      ∃ k, ends j ++ y = x ++ ends k
  | _, _, .done, _, _, _, j, hy, _ => by
      cases hy
      exact ⟨j, ends_comm j 1⟩
  | _, _, .entry key hkey hvalue hentries, _, _, _, j, hy, h => by
      cases hy with
      | entry key hkey' hvalue' hentries' =>
          -- an object end before the entry would be a key without a value
          simp only [List.append_assoc] at h
          cases eq_zero_of_entry hkey hvalue h
          rw [ends_zero, List.nil_append] at h
          obtain ⟨k, hk⟩ := hvalue.ahead (j := 0) hvalue' rfl (List.append_cancel_left h)
          rw [ends_zero, List.nil_append] at hk
          subst hk
          rw [List.append_assoc] at h
          obtain ⟨l, hl⟩ := hentries.ahead hentries'
            (List.append_cancel_left (List.append_cancel_left h))
          refine ⟨l, ?_⟩
          simp only [ends_zero, List.nil_append, List.append_assoc, hl]

theorem EncodesItems.ahead {m n : ℕ} : ∀ {i : ℕ} {items : List (String × Amf0Value)}
    {x : List UInt8}, EncodesItems m [] i items x → ∀ {y s t : List UInt8} {j : ℕ},
      EncodesItems n objectEnd i items y → x ++ s = ends j ++ (y ++ t) →
      ∃ k, ends j ++ y = x ++ ends k
  | _, _, _, .done i, _, _, _, j, hy, _ => by
      cases hy
      exact ⟨j, List.append_nil _⟩
  | _, _, _, @EncodesItems.item _ _ _ _ _ w w' hvalue hitems, _, s, t, j, hy, h => by
      cases hy with
      | @item _ _ _ y y' hvalue' hitems' =>
          simp only [List.append_assoc] at h
          obtain ⟨k, hk⟩ := hvalue.ahead hvalue' rfl h
          have hrest : w ++ (w' ++ s) = w ++ (ends k ++ (y' ++ t)) :=
            calc w ++ (w' ++ s) = ends j ++ y ++ (y' ++ t) := by rw [h, List.append_assoc]
              _ = w ++ (ends k ++ (y' ++ t)) := by rw [hk, List.append_assoc]
          obtain ⟨l, hl⟩ := hitems.ahead hitems' (List.append_cancel_left hrest)
          refine ⟨l, ?_⟩
          calc ends j ++ (y ++ y') = w ++ (ends k ++ y') := by
                rw [← List.append_assoc, hk, List.append_assoc]
            _ = w ++ w' ++ ends l := by rw [hl, List.append_assoc]

end

/-! ### A typed object is never read up to its end -/

/-- **A typed object is not read as AMF0 has it**: whatever its class name and its entries are, and
whatever follows it, no object comes out that ends where the typed object does. -/
theorem parse_typedObject_ne (className : String) (entries : List (String × Amf0Value))
    (w r : List UInt8) (hname : (asBytes className).length ≤ 65535)
    (hentries : EncodesEntries (2 ^ 32 - 1) [] entries w) :
    parse (amf0TypedObject :: (serializeStr className ++ (w ++ r))) ≠
      .ok (object entries, (amf0TypedObject :: (serializeStr className ++ w)).length) := by
  intro h
  obtain ⟨y, r', hdata, hlen, hy⟩ := parse_eq_ok_iff.mp h
  cases hy with
  | object hentries' => exact absurd (List.cons.inj hdata).1 (by decide)
  | @typedObject className' _ y hname' hentries' =>
      have hbytes : amf0TypedObject :: (serializeStr className ++ w) ++ r =
          ends 0 ++ (amf0TypedObject :: (serializeStr className' ++ (y ++ objectEnd)) ++ r') := by
        rw [← hdata, ends_zero, List.nil_append, List.cons_append, List.append_assoc]
      obtain ⟨hnames, hrest⟩ := typedObject_inj hname hname' hbytes
      obtain ⟨k, hk⟩ := hentries.ahead hentries' hrest
      -- the entries take all of `w` at least, and an end follows
      have hge : w.length ≤ y.length := by
        have hlengths := congrArg List.length hk
        simp only [ends_zero, List.nil_append, List.length_append] at hlengths
        omega
      simp only [List.length_cons, List.length_append, ← hnames, length_objectEnd] at hlen
      omega

/-- A typed object as the last entry of another, with an object end behind both. -/
theorem parse_typedObject_ne_nested :
    parse (amf0TypedObject :: (serializeStr "A" ++
        (serializeStr "k" ++
          (amf0TypedObject :: (serializeStr "B" ++ (objectEnd ++ [])) ++ objectEnd) ++
          objectEnd))) ≠
      .ok (object [("k", object [])], (amf0TypedObject :: (serializeStr "A" ++
        (serializeStr "k" ++
          (amf0TypedObject :: (serializeStr "B" ++ (objectEnd ++ [])) ++ objectEnd)))).length) :=
  parse_typedObject_ne "A" [("k", object [])] _ objectEnd (by decide)
    (.entry "k" (by decide) (.typedObject "B" (by decide) .done) .done)

end Amf0Value

end Rtmp
