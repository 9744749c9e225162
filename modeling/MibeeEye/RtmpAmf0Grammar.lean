/-
**The grammar of AMF0, as the parser reads it.**

`Amf0Value::parse` folds many wire forms into few kinds of value: a long string and XML become
strings, dates and strict arrays become ECMA arrays, typed objects become objects.  The grammar
here has one rule for each wire form, and says of every value which byte strings it is read from.
The parser accepts exactly these, and what follows one of them never matters.

What follows the entries of a typed object is a parameter.  In AMF0 it is nothing; for the code it is
another object end, since the entries end with one and the typed object looks for one more.

Main definitions:

* `Rtmp.Amf0Value.Encodes` — the byte strings a value is read from, with a bound on the length of
  long strings and XML, and with what follows a typed object.

Main results:

* `Rtmp.Amf0Value.encodes_of_parseF` — what was parsed is an encoding of the value;
* `Rtmp.Amf0Value.parseF_le` — so a successful parse consumes at least one byte and no more than
  there are;
* `Rtmp.Amf0Value.parseF_eq_parse` — **the fuel of `parse` is enough**;
* `Rtmp.Amf0Value.parseF_of_encodes` — **an encoding is parsed as its value**, whatever follows.
-/

import MibeeEye.RtmpAmf0

set_option relaxedAutoImplicit false
set_option autoImplicit false

namespace Rtmp

namespace Amf0Value

open Wire

/-! ### The grammar -/

/-- The end of the entries of an object: an empty key and the end marker. -/
def objectEnd : List UInt8 := [0x00, 0x00, amf0ObjectEnd]

@[simp] theorem length_objectEnd : objectEnd.length = 3 := rfl

mutual

/-- The byte strings a value is read from; long strings and XML have at most `longest` bytes, and
`typedEnd` follows the entries of a typed object. -/
inductive Encodes (longest : ℕ) (typedEnd : List UInt8) : Amf0Value → List UInt8 → Prop
  | number (bits : UInt64) :
      Encodes longest typedEnd (number bits) (amf0Number :: beBytes 8 bits.toNat)
  | boolean (b : UInt8) : Encodes longest typedEnd (boolean (b != 0)) [amf0Boolean, b]
  | string (s : String) (hs : (asBytes s).length ≤ 65535) :
      Encodes longest typedEnd (string s) (amf0String :: serializeStr s)
  | null : Encodes longest typedEnd null [amf0Null]
  | undefined : Encodes longest typedEnd undefined [amf0Undefined]
  | date (ms : UInt64) (tz : ℕ) (htz : tz < 2 ^ 16) :
      Encodes longest typedEnd (ecmaArray 2 [("ms", .number ms), ("tz", .number (F64.ofNat tz))])
        (amf0Date :: (beBytes 8 ms.toNat ++ beBytes 2 tz))
  | longString (s : String) (hs : (asBytes s).length ≤ longest) :
      Encodes longest typedEnd (.string s)
        (amf0LongString :: (beBytes 4 (asBytes s).length ++ asBytes s))
  | xml (s : String) (hs : (asBytes s).length ≤ longest) :
      Encodes longest typedEnd (.string s)
        (amf0Xml :: (beBytes 4 (asBytes s).length ++ asBytes s))
  | object {entries : List (String × Amf0Value)} {w : List UInt8}
      (hentries : EncodesEntries longest typedEnd entries w) :
      Encodes longest typedEnd (object entries) (amf0Object :: w)
  | ecmaArray {count : ℕ} {entries : List (String × Amf0Value)} {w : List UInt8}
      (hcount : count < 2 ^ 32) (hentries : EncodesEntries longest typedEnd entries w) :
      Encodes longest typedEnd (ecmaArray count entries) (amf0EcmaArray :: (beBytes 4 count ++ w))
  | strictArray {items : List (String × Amf0Value)} {w : List UInt8}
      (hcount : items.length < 2 ^ 32) (hitems : EncodesItems longest typedEnd 0 items w) :
      Encodes longest typedEnd (.ecmaArray items.length items)
        (amf0StrictArray :: (beBytes 4 items.length ++ w))
  | typedObject (className : String) {entries : List (String × Amf0Value)} {w : List UInt8}
      (hname : (asBytes className).length ≤ 65535)
      (hentries : EncodesEntries longest typedEnd entries w) :
      Encodes longest typedEnd (.object entries)
        (amf0TypedObject :: (serializeStr className ++ (w ++ typedEnd)))

/-- The byte strings the entries of an object are read from, with their end. -/
inductive EncodesEntries (longest : ℕ) (typedEnd : List UInt8) :
    List (String × Amf0Value) → List UInt8 → Prop
  | done : EncodesEntries longest typedEnd [] objectEnd
  | entry (key : String) {value : Amf0Value} {entries : List (String × Amf0Value)}
      {w w' : List UInt8} (hkey : (asBytes key).length ≤ 65535)
      (hvalue : Encodes longest typedEnd value w)
      (hentries : EncodesEntries longest typedEnd entries w') :
      EncodesEntries longest typedEnd ((key, value) :: entries) (serializeStr key ++ (w ++ w'))

/-- The byte strings the items of a strict array are read from; the first has index `i`. -/
inductive EncodesItems (longest : ℕ) (typedEnd : List UInt8) :
    ℕ → List (String × Amf0Value) → List UInt8 → Prop
  | done (i : ℕ) : EncodesItems longest typedEnd i [] []
  | item {i : ℕ} {value : Amf0Value} {items : List (String × Amf0Value)} {w w' : List UInt8}
      (hvalue : Encodes longest typedEnd value w)
      (hitems : EncodesItems longest typedEnd (i + 1) items w') :
      EncodesItems longest typedEnd i ((toString i, value) :: items) (w ++ w')

end

/-! ### What was parsed is an encoding -/

@[simp] theorem length_serializeStr (s : String) :
    (serializeStr s).length = 2 + (asBytes s).length := by
  simp [serializeStr]

/-- The bytes `w` at the front of `data` are all that was consumed, and `P` holds of them. -/
def Reads (data : List UInt8) (n : ℕ) (P : List UInt8 → Prop) : Prop :=
  ∃ w r, data = w ++ r ∧ w.length = n ∧ P w

/-- A text after its length. -/
theorem eq_sized_append {k : ℕ} {body : List UInt8} {s : String} (hk : k ≤ body.length)
    (hlen : k + ofBe (body.take k) ≤ body.length)
    (hs : fromUtf8 (slice body k (k + ofBe (body.take k))) = some s) :
    body = beBytes k (asBytes s).length ++ asBytes s ++ body.drop (k + ofBe (body.take k)) ∧
      (asBytes s).length = ofBe (body.take k) := by
  have hbytes := asBytes_of_fromUtf8 hs
  rw [slice, Nat.add_sub_cancel_left] at hbytes
  have hsize : (asBytes s).length = ofBe (body.take k) := by
    rw [hbytes, List.length_take, List.length_drop]
    omega
  refine ⟨?_, hsize⟩
  rw [hsize, beBytes_ofBe (List.length_take_of_le hk), hbytes, ← List.drop_drop, List.append_assoc,
    List.take_append_drop, List.take_append_drop]

/-- A length of two bytes is below `2 ^ 16`, one of four below `2 ^ 32`. -/
theorem ofBe_take_lt (k : ℕ) (body : List UInt8) : ofBe (body.take k) < 256 ^ k := by
  refine lt_of_lt_of_le (ofBe_lt _) (Nat.pow_le_pow_right (by omega) ?_)
  rw [List.length_take]
  omega

theorem eq_beBytes_append {k : ℕ} {body : List UInt8} (hk : k ≤ body.length) :
    body = beBytes k (ofBe (body.take k)) ++ body.drop k := by
  rw [beBytes_ofBe (List.length_take_of_le hk), List.take_append_drop]

theorem reads_of_parseLongString (marker : UInt8) {body : List UInt8} {v : Amf0Value} {n : ℕ}
    (h : parseLongString body = .ok (v, n)) :
    Reads (marker :: body) n fun w => ∃ s, v = string s ∧ (asBytes s).length ≤ 2 ^ 32 - 1 ∧
      w = marker :: (beBytes 4 (asBytes s).length ++ asBytes s) := by
  simp only [parseLongString] at h
  split at h
  · cases h
  · split at h
    · cases h
    · split at h
      · cases h
      · rename_i hfour hlen s hs
        cases h
        obtain ⟨hbody, hsize⟩ := eq_sized_append (by omega) (by omega) hs
        have hlt := ofBe_take_lt 4 body
        refine ⟨marker :: (beBytes 4 (asBytes s).length ++ asBytes s),
          body.drop (4 + ofBe (body.take 4)), ?_, ?_, s, rfl, ?_, rfl⟩
        · rw [List.cons_append]
          exact congrArg (marker :: ·) hbody
        · simp only [List.length_cons, List.length_append, length_beBytes, hsize]
          omega
        · omega

theorem reads_of_parseDate {body : List UInt8} {v : Amf0Value} {n : ℕ} {longest : ℕ}
    (h : parseDate body = .ok (v, n)) :
    Reads (amf0Date :: body) n (Encodes longest objectEnd v) := by
  simp only [parseDate] at h
  split at h
  · cases h
  · rename_i hlen
    cases h
    have hms : slice body 0 8 = body.take 8 := rfl
    have htz : slice body 8 10 = (body.drop 8).take 2 := rfl
    have hmslt := ofBe_take_lt 8 body
    have hnat : (UInt64.ofNat (ofBe (body.take 8))).toNat = ofBe (body.take 8) :=
      UInt64.toNat_ofNat_of_lt' hmslt
    rw [hms, htz]
    refine ⟨_, body.drop 10, ?_, ?_, Encodes.date _ _ (ofBe_take_lt 2 _)⟩
    · rw [hnat, List.cons_append, beBytes_ofBe (List.length_take_of_le (by omega)),
        beBytes_ofBe (List.length_take_of_le (by rw [List.length_drop]; omega)), List.append_assoc,
        show body.drop 10 = (body.drop 8).drop 2 by rw [List.drop_drop], List.take_append_drop,
        List.take_append_drop]
    · simp

/-- **A value without nested ones is read from an encoding of it.** -/
theorem reads_of_parseScalar {marker : UInt8} {body : List UInt8} {v : Amf0Value} {n : ℕ}
    (h : parseScalar marker body = some (.ok (v, n))) :
    Reads (marker :: body) n (Encodes (2 ^ 32 - 1) objectEnd v) := by
  unfold parseScalar at h
  by_cases hmarker : marker = amf0Number
  · rw [if_pos hmarker] at h
    split at h
    · cases h
    · cases h
      have hnat : (UInt64.ofNat (ofBe (body.take 8))).toNat = ofBe (body.take 8) :=
        UInt64.toNat_ofNat_of_lt' (ofBe_take_lt 8 body)
      refine ⟨_, body.drop 8, ?_, ?_, Encodes.number _⟩
      · rw [hnat, hmarker, List.cons_append, ← eq_beBytes_append (by omega)]
      · simp
  rw [if_neg hmarker] at h
  by_cases hmarker : marker = amf0Boolean
  · rw [if_pos hmarker] at h
    split at h
    · cases h
    · rename_i b rest
      cases h
      exact ⟨[amf0Boolean, b], rest, by rw [hmarker]; rfl, rfl, Encodes.boolean b⟩
  rw [if_neg hmarker] at h
  by_cases hmarker : marker = amf0String
  · rw [if_pos hmarker] at h
    dsimp only at h
    split at h
    · cases h
    · split at h
      · cases h
      · split at h
        · cases h
        · rename_i s hs
          cases h
          obtain ⟨hbody, hsize⟩ := eq_sized_append (by omega) (by omega) hs
          have hlt := ofBe_take_lt 2 body
          refine ⟨amf0String :: serializeStr s, body.drop (2 + ofBe (body.take 2)), ?_, ?_,
            Encodes.string s (by omega)⟩
          · rw [hmarker, List.cons_append, serializeStr]
            exact congrArg (amf0String :: ·) hbody
          · rw [List.length_cons, length_serializeStr, hsize]
            omega
  rw [if_neg hmarker] at h
  by_cases hmarker : marker = amf0Null
  · rw [if_pos hmarker] at h
    cases h
    exact ⟨[amf0Null], body, by rw [hmarker]; rfl, rfl, Encodes.null⟩
  rw [if_neg hmarker] at h
  by_cases hmarker : marker = amf0Undefined
  · rw [if_pos hmarker] at h
    cases h
    exact ⟨[amf0Undefined], body, by rw [hmarker]; rfl, rfl, Encodes.undefined⟩
  rw [if_neg hmarker] at h
  by_cases hmarker : marker = amf0Date
  · rw [if_pos hmarker] at h
    rw [hmarker]
    exact reads_of_parseDate (Option.some.inj h)
  rw [if_neg hmarker] at h
  by_cases hmarker : marker = amf0LongString
  · rw [if_pos hmarker] at h
    obtain ⟨w, r, hw, hn, s, rfl, hs, rfl⟩ := reads_of_parseLongString marker (Option.some.inj h)
    rw [hmarker] at hw hn ⊢
    exact ⟨_, r, hw, hn, Encodes.longString s hs⟩
  rw [if_neg hmarker] at h
  by_cases hmarker : marker = amf0Xml
  · rw [if_pos hmarker] at h
    obtain ⟨w, r, hw, hn, s, rfl, hs, rfl⟩ := reads_of_parseLongString marker (Option.some.inj h)
    rw [hmarker] at hw hn ⊢
    exact ⟨_, r, hw, hn, Encodes.xml s hs⟩
  rw [if_neg hmarker] at h
  by_cases hmarker : marker = amf0Amf3
  · rw [if_pos hmarker] at h
    cases h
  · rw [if_neg hmarker] at h
    cases h

/-- What was parsed with a given amount of fuel is an encoding of the result. -/
structure Sound (fuel : ℕ) : Prop where
  value : ∀ data v n, parseF fuel data = .ok (v, n) →
    Reads data n (Encodes (2 ^ 32 - 1) objectEnd v)
  objectEntries : ∀ data es n, parseObjectEntries fuel data = .ok (es, n) →
    Reads data n (EncodesEntries (2 ^ 32 - 1) objectEnd es)
  strictEntries : ∀ count i data es n, parseStrictEntries fuel count i data = .ok (es, n) →
    es.length = count ∧ Reads data n (EncodesItems (2 ^ 32 - 1) objectEnd i es)

namespace Sound

variable {fuel : ℕ}

theorem zero : Sound 0 where
  value := by
    intro data v n h
    cases h
  objectEntries := by
    intro data es n h
    cases h
  strictEntries := by
    intro count i data es n h
    cases count with
    | zero =>
        cases h
        exact ⟨rfl, [], data, rfl, rfl, .done i⟩
    | succ count => cases h

/-- A value, from what it nests. -/
theorem value_succ (hfuel : Sound fuel) : ∀ data v n, parseF (fuel + 1) data = .ok (v, n) →
    Reads data n (Encodes (2 ^ 32 - 1) objectEnd v) := by
  intro data v n h
  cases data with
  | nil => cases h
  | cons marker body =>
      rw [parseF] at h
      split at h
      · rename_i result hscalar
        rw [h] at hscalar
        exact reads_of_parseScalar hscalar
      by_cases hmarker : marker = amf0Object
      · rw [if_pos hmarker] at h
        obtain ⟨⟨entries, consumed⟩, hentries, h⟩ := exists_of_bind_eq_ok h
        cases h
        obtain ⟨w, r, rfl, rfl, hw⟩ := hfuel.objectEntries _ _ _ hentries
        exact ⟨amf0Object :: w, r, by rw [hmarker]; rfl, by rw [List.length_cons]; omega,
          .object hw⟩
      rw [if_neg hmarker] at h
      by_cases hmarker : marker = amf0EcmaArray
      · rw [if_pos hmarker] at h
        split at h
        · cases h
        · rename_i hlen
          obtain ⟨⟨entries, consumed⟩, hentries, h⟩ := exists_of_bind_eq_ok h
          cases h
          obtain ⟨w, r, hbody, rfl, hw⟩ := hfuel.objectEntries _ _ _ hentries
          refine ⟨_, r, ?_, ?_, .ecmaArray (ofBe_take_lt 4 body) hw⟩
          · rw [hmarker, List.cons_append, List.append_assoc, ← hbody,
              ← eq_beBytes_append (by omega)]
          · simp only [List.length_cons, List.length_append, length_beBytes]
            omega
      rw [if_neg hmarker] at h
      by_cases hmarker : marker = amf0StrictArray
      · rw [if_pos hmarker] at h
        split at h
        · cases h
        · rename_i hlen
          obtain ⟨⟨entries, consumed⟩, hentries, h⟩ := exists_of_bind_eq_ok h
          cases h
          obtain ⟨hcount, w, r, hbody, rfl, hw⟩ := hfuel.strictEntries _ _ _ _ _ hentries
          have hlt := ofBe_take_lt 4 body
          rw [← hcount] at hlt ⊢
          refine ⟨_, r, ?_, ?_, .strictArray hlt hw⟩
          · rw [hmarker, List.cons_append, List.append_assoc, ← hbody, hcount,
              ← eq_beBytes_append (by omega)]
          · simp only [List.length_cons, List.length_append, length_beBytes]
            omega
      rw [if_neg hmarker] at h
      by_cases hmarker : marker = amf0TypedObject
      · rw [if_pos hmarker] at h
        split at h
        · cases h
        · dsimp only at h
          split at h
          · cases h
          · split at h
            · cases h
            · rename_i hshort hname className hutf
              obtain ⟨⟨entries, consumed⟩, hentries, h⟩ := exists_of_bind_eq_ok h
              dsimp only at h
              split at h
              · cases h
              · split at h
                · cases h
                · rename_i hend hmark
                  cases h
                  obtain ⟨w, r, hbody, rfl, hw⟩ := hfuel.objectEntries _ _ _ hentries
                  obtain ⟨hsized, hsize⟩ := eq_sized_append (by omega) (by omega) hutf
                  have hlt := ofBe_take_lt 2 body
                  -- the three bytes after the entries are one more object end
                  have hrest : r = objectEnd ++ r.drop 3 := by
                    rw [not_not, hbody, slice, List.drop_left, Nat.add_sub_cancel_left] at hmark
                    rw [objectEnd, ← hmark, List.take_append_drop]
                  refine ⟨_, r.drop 3, ?_, ?_, .typedObject className (by omega) hw⟩
                  · rw [hmarker, List.cons_append, List.append_assoc, List.append_assoc, ← hrest,
                      ← hbody]
                    exact congrArg (amf0TypedObject :: ·) hsized
                  · simp only [List.length_cons, List.length_append, length_serializeStr, hsize,
                      objectEnd, List.length_nil]
                    omega
      · rw [if_neg hmarker] at h
        cases h

/-- The entries of an object: a key, a value and the entries after it. -/
theorem objectEntries_succ (hfuel : Sound fuel) :
    ∀ data es n, parseObjectEntries (fuel + 1) data = .ok (es, n) →
      Reads data n (EncodesEntries (2 ^ 32 - 1) objectEnd es) := by
  intro data es n h
  rw [parseObjectEntries] at h
  split at h
  · cases h
  · dsimp only at h
    split at h
    · cases h
    · split at h
      · rename_i hlen _ hend
        cases h
        obtain ⟨hzero, hhead⟩ := hend
        refine ⟨objectEnd, data.drop 3, ?_, rfl, .done⟩
        obtain ⟨rest, hrest⟩ := List.head?_eq_some_iff.1 hhead
        have hdata := @eq_beBytes_append 2 data (by omega)
        rw [hzero, hrest] at hdata
        have hdrop : data.drop 3 = rest := by
          rw [show 3 = 2 + 1 from rfl, ← List.drop_drop, hrest]
          rfl
        rw [hdrop]
        exact hdata
      · split at h
        · cases h
        · split at h
          · cases h
          · rename_i hlen _ _ hkey _ key hutf
            obtain ⟨⟨value, consumed⟩, hvalue, h⟩ := exists_of_bind_eq_ok h
            obtain ⟨⟨entries, m⟩, hentries, h⟩ := exists_of_bind_eq_ok h
            cases h
            rw [List.length_drop] at hkey
            obtain ⟨hsized, hsize⟩ := @eq_sized_append 2 data key
              (by omega) (by omega) (by rw [slice, Nat.add_sub_cancel_left]; exact hutf)
            have hlt := ofBe_take_lt 2 data
            obtain ⟨w, r, hr, rfl, hw⟩ := hfuel.value _ _ _ hvalue
            obtain ⟨w', r', hr', rfl, hw'⟩ := hfuel.objectEntries _ _ _ hentries
            have htail : r = w' ++ r' := by
              rw [← List.drop_drop, hr, List.drop_left] at hr'
              exact hr'
            refine ⟨_, r', ?_, ?_, .entry key (by omega) hw hw'⟩
            · rw [List.append_assoc, List.append_assoc, ← htail, ← hr, List.drop_drop]
              exact hsized
            · simp only [List.length_append, length_serializeStr, hsize]
              omega

/-- The items of a strict array. -/
theorem strictEntries_succ (hfuel : Sound fuel) :
    ∀ count i data es n, parseStrictEntries (fuel + 1) count i data = .ok (es, n) →
      es.length = count ∧ Reads data n (EncodesItems (2 ^ 32 - 1) objectEnd i es) := by
  intro count i data es n h
  cases count with
  | zero =>
      cases h
      exact ⟨rfl, [], data, rfl, rfl, .done i⟩
  | succ count =>
      rw [parseStrictEntries] at h
      obtain ⟨⟨value, consumed⟩, hvalue, h⟩ := exists_of_bind_eq_ok h
      obtain ⟨⟨entries, m⟩, hentries, h⟩ := exists_of_bind_eq_ok h
      cases h
      obtain ⟨w, r, rfl, rfl, hw⟩ := hfuel.value _ _ _ hvalue
      rw [List.drop_left] at hentries
      obtain ⟨hcount, w', r', rfl, rfl, hw'⟩ := hfuel.strictEntries _ _ _ _ _ hentries
      exact ⟨congrArg (· + 1) hcount, w ++ w', r', (List.append_assoc _ _ _).symm,
        List.length_append, .item hw hw'⟩

end Sound

/-- **What was parsed is an encoding of the value**, with every amount of fuel. -/
theorem encodes_of_parseF (fuel : ℕ) : Sound fuel := by
  induction fuel with
  | zero => exact Sound.zero
  | succ fuel ih => exact ⟨ih.value_succ, ih.objectEntries_succ, ih.strictEntries_succ⟩

/-! ### How much is consumed -/

/-- The bytes of a value are at least its marker, and that is never the end marker of an object. -/
theorem Encodes.eq_cons {longest : ℕ} {typedEnd : List UInt8} {v : Amf0Value} {w : List UInt8}
    (h : Encodes longest typedEnd v w) :
    ∃ marker body, w = marker :: body ∧ marker ≠ amf0ObjectEnd := by
  cases h with
  | number bits => exact ⟨amf0Number, _, rfl, by decide⟩
  | boolean b => exact ⟨amf0Boolean, _, rfl, by decide⟩
  | string s hs => exact ⟨amf0String, _, rfl, by decide⟩
  | null => exact ⟨amf0Null, _, rfl, by decide⟩
  | undefined => exact ⟨amf0Undefined, _, rfl, by decide⟩
  | date ms tz htz => exact ⟨amf0Date, _, rfl, by decide⟩
  | longString s hs => exact ⟨amf0LongString, _, rfl, by decide⟩
  | xml s hs => exact ⟨amf0Xml, _, rfl, by decide⟩
  | object hentries => exact ⟨amf0Object, _, rfl, by decide⟩
  | ecmaArray hcount hentries => exact ⟨amf0EcmaArray, _, rfl, by decide⟩
  | strictArray hcount hitems => exact ⟨amf0StrictArray, _, rfl, by decide⟩
  | typedObject className hname hentries => exact ⟨amf0TypedObject, _, rfl, by decide⟩

/-- What a successful parse consumes is there, with a given amount of fuel. -/
structure StaysWithin (fuel : ℕ) : Prop where
  value : ∀ data v n, parseF fuel data = .ok (v, n) → 1 ≤ n ∧ n ≤ data.length
  objectEntries : ∀ data es n, parseObjectEntries fuel data = .ok (es, n) → n ≤ data.length
  strictEntries : ∀ count i data es n, parseStrictEntries fuel count i data = .ok (es, n) →
    n ≤ data.length

/-- **A successful parse stays within its bytes**, with every amount of fuel. -/
theorem parseF_le (fuel : ℕ) : StaysWithin fuel := by
  have hsound := encodes_of_parseF fuel
  refine ⟨fun data v n h => ?_, fun data es n h => ?_, fun count i data es n h => ?_⟩
  · obtain ⟨w, r, rfl, rfl, hw⟩ := hsound.value data v n h
    obtain ⟨marker, body, rfl, -⟩ := hw.eq_cons
    simp
  · obtain ⟨w, r, rfl, rfl, -⟩ := hsound.objectEntries data es n h
    simp
  · obtain ⟨-, w, r, rfl, rfl, -⟩ := hsound.strictEntries count i data es n h
    simp

/-! ### The fuel is enough -/

/-- One more makes no difference to an amount of fuel that is more than there are bytes. -/
structure FuelSuffices (fuel : ℕ) : Prop where
  value : ∀ data : List UInt8, data.length < fuel → parseF (fuel + 1) data = parseF fuel data
  objectEntries : ∀ data : List UInt8, data.length < fuel →
    parseObjectEntries (fuel + 1) data = parseObjectEntries fuel data
  strictEntries : ∀ (count i : ℕ) (data : List UInt8), data.length + 1 < fuel →
    parseStrictEntries (fuel + 1) count i data = parseStrictEntries fuel count i data

namespace FuelSuffices

variable {fuel : ℕ}

theorem zero : FuelSuffices 0 where
  value := by
    intro data h
    omega
  objectEntries := by
    intro data h
    omega
  strictEntries := by
    intro count i data h
    omega

theorem value_succ (h : FuelSuffices fuel) : ∀ data : List UInt8, data.length < fuel + 1 →
    parseF (fuel + 1 + 1) data = parseF (fuel + 1) data := by
  intro data hlen
  cases data with
  | nil => rfl
  | cons marker body =>
      rw [List.length_cons] at hlen
      have hbody : ∀ k, (body.drop k).length < fuel := by
        intro k
        rw [List.length_drop]
        omega
      rw [parseF, parseF, h.objectEntries body (by omega), h.objectEntries (body.drop 4) (hbody 4)]
      cases parseScalar marker body with
      | some result => rfl
      | none =>
          dsimp only
          by_cases hmarker : marker = amf0Object
          · rw [if_pos hmarker, if_pos hmarker]
          rw [if_neg hmarker, if_neg hmarker]
          by_cases hmarker : marker = amf0EcmaArray
          · rw [if_pos hmarker, if_pos hmarker]
          rw [if_neg hmarker, if_neg hmarker]
          by_cases hmarker : marker = amf0StrictArray
          · rw [if_pos hmarker, if_pos hmarker]
            split
            · rfl
            · rw [h.strictEntries _ _ (body.drop 4) (by rw [List.length_drop]; omega)]
          rw [if_neg hmarker, if_neg hmarker]
          by_cases hmarker : marker = amf0TypedObject
          · rw [if_pos hmarker, if_pos hmarker]
            split
            · rfl
            · split
              · rfl
              · split
                · rfl
                · rw [h.objectEntries _ (hbody _)]
          · rw [if_neg hmarker, if_neg hmarker]

theorem objectEntries_succ (h : FuelSuffices fuel) : ∀ data : List UInt8, data.length < fuel + 1 →
    parseObjectEntries (fuel + 1 + 1) data = parseObjectEntries (fuel + 1) data := by
  intro data hlen
  rw [parseObjectEntries, parseObjectEntries]
  split
  · rfl
  · dsimp only
    split
    · rfl
    split
    · rfl
    split
    · rfl
    split
    · rfl
    · refine bind_congr_ok (h.value _ (by simp only [List.length_drop]; omega)) ?_
      rintro ⟨value, consumed⟩ -
      dsimp only
      rw [h.objectEntries _ (by simp only [List.length_drop]; omega)]

theorem strictEntries_succ (h : FuelSuffices fuel) : ∀ (count i : ℕ) (data : List UInt8),
    data.length + 1 < fuel + 1 →
    parseStrictEntries (fuel + 1 + 1) count i data = parseStrictEntries (fuel + 1) count i data := by
  intro count i data hlen
  cases count with
  | zero => rfl
  | succ count =>
      rw [parseStrictEntries, parseStrictEntries]
      refine bind_congr_ok (h.value _ (by omega)) ?_
      rintro ⟨value, consumed⟩ hvalue
      have hle := (parseF_le fuel).value _ _ _ hvalue
      dsimp only
      rw [h.strictEntries _ _ _ (by rw [List.length_drop]; omega)]

end FuelSuffices

/-- With more fuel than bytes, one more makes no difference. -/
theorem parseF_succ (fuel : ℕ) : FuelSuffices fuel := by
  induction fuel with
  | zero => exact FuelSuffices.zero
  | succ fuel ih => exact ⟨ih.value_succ, ih.objectEntries_succ, ih.strictEntries_succ⟩

/-- **The fuel of `parse` is enough.** -/
theorem parseF_eq_parse {fuel : ℕ} {data : List UInt8} (h : data.length < fuel) :
    parseF fuel data = parse data := by
  induction fuel with
  | zero => omega
  | succ fuel ih =>
      by_cases hlt : data.length < fuel
      · rw [(parseF_succ fuel).value data hlt, ih hlt]
      · rw [parse, show fuel = data.length by omega]

/-! ### An encoding is parsed -/

/-- A string is read back from its length and its bytes. -/
theorem ofBe_take_serializeStr {s : String} (h : (asBytes s).length ≤ 65535) (r : List UInt8) :
    ofBe ((serializeStr s ++ r).take 2) = (asBytes s).length := by
  have htake : (serializeStr s ++ r).take 2 = beBytes 2 (asBytes s).length := by
    rw [serializeStr, List.append_assoc]
    exact List.take_left' (length_beBytes 2 _)
  rw [htake]
  exact ofBe_beBytes_of_lt (by omega)

theorem drop_serializeStr (s : String) (r : List UInt8) :
    (serializeStr s ++ r).drop 2 = asBytes s ++ r := by
  rw [serializeStr, List.append_assoc]
  exact List.drop_left' (length_beBytes 2 _)

theorem parseScalar_number (bits : UInt64) (r : List UInt8) :
    parseScalar amf0Number (beBytes 8 bits.toNat ++ r) = some (.ok (number bits, 1 + 8)) := by
  have htake : (beBytes 8 bits.toNat ++ r).take 8 = beBytes 8 bits.toNat :=
    List.take_left' (length_beBytes 8 _)
  have hlen : ¬ (beBytes 8 bits.toNat ++ r).length < 8 := by
    rw [List.length_append, length_beBytes]
    omega
  have hbits : ofBe (beBytes 8 bits.toNat) = bits.toNat :=
    ofBe_beBytes_of_lt bits.toNat_lt
  unfold parseScalar
  rw [if_pos rfl, if_neg hlen, htake, hbits, UInt64.ofNat_toNat]

theorem parseScalar_string {s : String} (h : (asBytes s).length ≤ 65535) (r : List UInt8) :
    parseScalar amf0String (serializeStr s ++ r) =
      some (.ok (string s, 1 + 2 + (asBytes s).length)) := by
  have hlen : (serializeStr s ++ r).length = 2 + (asBytes s).length + r.length := by
    rw [List.length_append, length_serializeStr]
  have hslice : slice (serializeStr s ++ r) 2 (2 + (asBytes s).length) = asBytes s := by
    rw [slice, drop_serializeStr]
    exact List.take_left' (by omega)
  have hnumber : amf0String ≠ amf0Number := by decide
  have hboolean : amf0String ≠ amf0Boolean := by decide
  unfold parseScalar
  rw [if_neg hnumber, if_neg hboolean, if_pos rfl, if_neg (by omega)]
  dsimp only
  rw [ofBe_take_serializeStr h, if_neg (by omega), hslice, fromUtf8_asBytes]

theorem parseLongString_sized {s : String} (h : (asBytes s).length < 2 ^ 32) (r : List UInt8) :
    parseLongString (beBytes 4 (asBytes s).length ++ asBytes s ++ r) =
      .ok (string s, 1 + 4 + (asBytes s).length) := by
  have htake : (beBytes 4 (asBytes s).length ++ asBytes s ++ r).take 4 =
      beBytes 4 (asBytes s).length := by
    rw [List.append_assoc]
    exact List.take_left' (length_beBytes 4 _)
  have hlen : (beBytes 4 (asBytes s).length ++ asBytes s ++ r).length =
      4 + (asBytes s).length + r.length := by
    rw [List.length_append, List.length_append, length_beBytes]
  have hslice : slice (beBytes 4 (asBytes s).length ++ asBytes s ++ r) 4
      (4 + (asBytes s).length) = asBytes s := by
    rw [slice, List.append_assoc, List.drop_left' (length_beBytes 4 _)]
    exact List.take_left' (by omega)
  simp only [parseLongString]
  rw [if_neg (by omega), htake, ofBe_beBytes_of_lt (by omega), if_neg (by omega), hslice,
    fromUtf8_asBytes]

theorem parseDate_encoded (ms : UInt64) {tz : ℕ} (h : tz < 2 ^ 16) (r : List UInt8) :
    parseDate (beBytes 8 ms.toNat ++ beBytes 2 tz ++ r) =
      .ok (ecmaArray 2 [("ms", number ms), ("tz", number (F64.ofNat tz))], 1 + 10) := by
  have hlen : ¬ (beBytes 8 ms.toNat ++ beBytes 2 tz ++ r).length < 10 := by
    rw [List.length_append, List.length_append, length_beBytes, length_beBytes]
    omega
  have hms : slice (beBytes 8 ms.toNat ++ beBytes 2 tz ++ r) 0 8 = beBytes 8 ms.toNat := by
    rw [List.append_assoc]
    exact List.take_left' (length_beBytes 8 _)
  have htz : slice (beBytes 8 ms.toNat ++ beBytes 2 tz ++ r) 8 10 = beBytes 2 tz := by
    rw [slice, List.append_assoc, List.drop_left' (length_beBytes 8 _)]
    exact List.take_left' (length_beBytes 2 _)
  have hbits : ofBe (beBytes 8 ms.toNat) = ms.toNat := ofBe_beBytes_of_lt ms.toNat_lt
  simp only [parseDate]
  rw [if_neg hlen, hms, htz, hbits, ofBe_beBytes_of_lt (by omega), UInt64.ofNat_toNat]

theorem Encodes.append_eq_cons {longest : ℕ} {typedEnd : List UInt8} {v : Amf0Value}
    {w : List UInt8} (h : Encodes longest typedEnd v w) (r : List UInt8) :
    ∃ marker body, w ++ r = marker :: body ∧ marker ≠ amf0ObjectEnd := by
  obtain ⟨marker, body, rfl, hmarker⟩ := h.eq_cons
  exact ⟨marker, body ++ r, rfl, hmarker⟩

/-- The end of the entries of an object. -/
theorem parseObjectEntries_end (fuel : ℕ) (r : List UInt8) :
    parseObjectEntries (fuel + 1) (objectEnd ++ r) = .ok ([], 3) := by
  rw [parseObjectEntries, if_neg (by simp [objectEnd])]
  simp [objectEnd, ofBe, ofLe]

/-- One entry: its key is never taken for the end when a marker that is not the end's follows. -/
theorem parseObjectEntries_key {key : String} {tail : List UInt8} (fuel : ℕ)
    (hkey : (asBytes key).length ≤ 65535)
    (hstart : ∃ marker body, tail = marker :: body ∧ marker ≠ amf0ObjectEnd) :
    parseObjectEntries (fuel + 1) (serializeStr key ++ tail) = (do
      let (value, consumed) ← parseF fuel tail
      let (entries, n) ← parseObjectEntries fuel (tail.drop consumed)
      return ((key, value) :: entries, 2 + (asBytes key).length + consumed + n)) := by
  obtain ⟨marker, body, htail, hmarker⟩ := hstart
  have hkeyLen := ofBe_take_serializeStr hkey tail
  have hrest := drop_serializeStr key tail
  have hlen : ¬ (serializeStr key ++ tail).length < 2 := by
    rw [List.length_append, length_serializeStr]
    omega
  have hnonempty : ¬ ((asBytes key).length = 0 ∧ (asBytes key ++ tail).length < 1) := by
    rintro ⟨-, hshort⟩
    rw [htail] at hshort
    simp only [List.length_append, List.length_cons] at hshort
    omega
  -- an empty key stands directly before the marker of its value
  have hend : ¬ ((asBytes key).length = 0 ∧ (asBytes key ++ tail).head? = some amf0ObjectEnd) := by
    rintro ⟨hempty, hhead⟩
    rw [List.length_eq_zero_iff.1 hempty, htail] at hhead
    exact hmarker (Option.some.inj hhead)
  have hfull : ¬ (asBytes key ++ tail).length < (asBytes key).length := by
    rw [List.length_append]
    omega
  rw [parseObjectEntries, if_neg hlen]
  dsimp only
  rw [hkeyLen, hrest, if_neg hnonempty, if_neg hend, if_neg hfull, List.take_left,
    fromUtf8_asBytes, List.drop_left]
  refine bind_congr_ok rfl ?_
  rintro ⟨value, consumed⟩ -
  dsimp only
  rw [← List.drop_drop, List.drop_left]

/-- An object is read once its entries are. -/
theorem parseF_object (fuel : ℕ) (body : List UInt8) :
    parseF (fuel + 1) (amf0Object :: body) = (do
      let (entries, n) ← parseObjectEntries fuel body
      return (object entries, 1 + n)) :=
  rfl

/-- An ECMA array is read once its entries are. -/
theorem parseF_ecmaArray (fuel : ℕ) {count : ℕ} (body : List UInt8) (hcount : count < 2 ^ 32) :
    parseF (fuel + 1) (amf0EcmaArray :: (beBytes 4 count ++ body)) = (do
      let (entries, n) ← parseObjectEntries fuel body
      return (ecmaArray count entries, 1 + 4 + n)) := by
  have hlen : ¬ (beBytes 4 count ++ body).length < 4 := by
    rw [List.length_append, length_beBytes]
    omega
  have htake : (beBytes 4 count ++ body).take 4 = beBytes 4 count :=
    List.take_left' (length_beBytes 4 _)
  have hdrop : (beBytes 4 count ++ body).drop 4 = body := List.drop_left' (length_beBytes 4 _)
  have hscalar : parseScalar amf0EcmaArray (beBytes 4 count ++ body) = none := rfl
  have hobject : amf0EcmaArray ≠ amf0Object := by decide
  rw [parseF, hscalar]
  dsimp only
  rw [if_neg hobject, if_pos rfl, if_neg hlen, htake, hdrop, ofBe_beBytes_of_lt (by omega)]

/-- A strict array is read once its items are. -/
theorem parseF_strictArray (fuel : ℕ) {count : ℕ} (body : List UInt8) (hcount : count < 2 ^ 32) :
    parseF (fuel + 1) (amf0StrictArray :: (beBytes 4 count ++ body)) = (do
      let (items, n) ← parseStrictEntries fuel count 0 body
      return (ecmaArray count items, 1 + 4 + n)) := by
  have hlen : ¬ (beBytes 4 count ++ body).length < 4 := by
    rw [List.length_append, length_beBytes]
    omega
  have htake : (beBytes 4 count ++ body).take 4 = beBytes 4 count :=
    List.take_left' (length_beBytes 4 _)
  have hdrop : (beBytes 4 count ++ body).drop 4 = body := List.drop_left' (length_beBytes 4 _)
  have hscalar : parseScalar amf0StrictArray (beBytes 4 count ++ body) = none := rfl
  have hobject : amf0StrictArray ≠ amf0Object := by decide
  have hecma : amf0StrictArray ≠ amf0EcmaArray := by decide
  rw [parseF, hscalar]
  dsimp only
  rw [if_neg hobject, if_neg hecma, if_pos rfl, if_neg hlen, htake, hdrop,
    ofBe_beBytes_of_lt (by omega)]

/-- A typed object once its entries are read: what is made of the three bytes after them. -/
theorem parseF_typedObject {fuel : ℕ} {className : String} {body : List UInt8}
    {entries : List (String × Amf0Value)} {n : ℕ} (hname : (asBytes className).length ≤ 65535)
    (h : parseObjectEntries fuel body = .ok (entries, n)) :
    parseF (fuel + 1) (amf0TypedObject :: (serializeStr className ++ body)) =
      if body.length < n + 3 then .error "Insufficient data for AMF0 typed object end marker"
      else if slice body n (n + 3) ≠ objectEnd then .error "Invalid AMF0 typed object end marker"
      else .ok (object entries, 1 + 2 + (asBytes className).length + n + 3) := by
  have hlen : (serializeStr className ++ body).length =
      2 + (asBytes className).length + body.length := by
    rw [List.length_append, length_serializeStr]
  have hslice : slice (serializeStr className ++ body) 2 (2 + (asBytes className).length) =
      asBytes className := by
    rw [slice, drop_serializeStr]
    exact List.take_left' (by omega)
  have hdrop : (serializeStr className ++ body).drop (2 + (asBytes className).length) = body :=
    List.drop_left' (length_serializeStr className)
  have hscalar : parseScalar amf0TypedObject (serializeStr className ++ body) = none := rfl
  have hobject : amf0TypedObject ≠ amf0Object := by decide
  have hecma : amf0TypedObject ≠ amf0EcmaArray := by decide
  have hstrict : amf0TypedObject ≠ amf0StrictArray := by decide
  rw [parseF, hscalar]
  dsimp only
  rw [if_neg hobject, if_neg hecma, if_neg hstrict, if_pos rfl, if_neg (by omega),
    ofBe_take_serializeStr hname, if_neg (by omega), hslice, fromUtf8_asBytes]
  dsimp only
  rw [hdrop, h]
  rfl

section Complete

variable {longest : ℕ}

mutual

/-- **With enough fuel an encoding is parsed as its value**, whatever follows it. -/
theorem parseF_of_encodes (hlongest : longest < 2 ^ 32) :
    ∀ {v : Amf0Value} {w : List UInt8}, Encodes longest objectEnd v w → ∀ (r : List UInt8) (fuel : ℕ),
      (w ++ r).length < fuel → parseF fuel (w ++ r) = .ok (v, w.length)
  | _, _, _, r, 0, hfuel => by omega
  | _, _, .number bits, r, fuel + 1, _ => by
      rw [List.cons_append, parseF, parseScalar_number]
      simp
  | _, _, .boolean b, r, fuel + 1, _ => rfl
  | _, _, .string s hs, r, fuel + 1, _ => by
      rw [List.cons_append, parseF, parseScalar_string hs]
      simp only [List.length_cons, length_serializeStr]
      congr 2
      omega
  | _, _, .null, r, fuel + 1, _ => rfl
  | _, _, .undefined, r, fuel + 1, _ => rfl
  | _, _, .date ms tz htz, r, fuel + 1, _ => by
      change parseDate (beBytes 8 ms.toNat ++ beBytes 2 tz ++ r) = _
      rw [parseDate_encoded ms htz]
      simp
  | _, _, .longString s hs, r, fuel + 1, _ => by
      change parseLongString (beBytes 4 (asBytes s).length ++ asBytes s ++ r) = _
      rw [parseLongString_sized (by omega)]
      simp only [List.length_cons, List.length_append, length_beBytes]
      congr 2
      omega
  | _, _, .xml s hs, r, fuel + 1, _ => by
      change parseLongString (beBytes 4 (asBytes s).length ++ asBytes s ++ r) = _
      rw [parseLongString_sized (by omega)]
      simp only [List.length_cons, List.length_append, length_beBytes]
      congr 2
      omega
  | _, _, .object hentries, r, fuel + 1, hfuel => by
      simp only [List.cons_append, List.length_cons] at hfuel ⊢
      rw [parseF_object, parseObjectEntries_of_encodes hlongest hentries r fuel (by omega),
        Nat.add_comm]
      rfl
  | _, _, .ecmaArray hcount hentries, r, fuel + 1, hfuel => by
      simp only [List.cons_append, List.append_assoc, List.length_cons, List.length_append,
        length_beBytes] at hfuel ⊢
      rw [parseF_ecmaArray fuel _ hcount, parseObjectEntries_of_encodes hlongest hentries r fuel
        (by rw [List.length_append]; omega)]
      change Except.ok (_, _) = Except.ok (_, _)
      congr 2
      omega
  | _, _, .strictArray hcount hitems, r, fuel + 1, hfuel => by
      simp only [List.cons_append, List.append_assoc, List.length_cons, List.length_append,
        length_beBytes] at hfuel ⊢
      rw [parseF_strictArray fuel _ hcount, parseStrictEntries_of_encodes hlongest hitems r fuel
        (by rw [List.length_append]; omega)]
      change Except.ok (_, _) = Except.ok (_, _)
      congr 2
      omega
  | _, _, .typedObject (w := w) className hname hentries, r, fuel + 1, hfuel => by
      simp only [List.cons_append, List.append_assoc, List.length_cons, List.length_append,
        length_serializeStr, length_objectEnd] at hfuel ⊢
      have hslice : slice (w ++ (objectEnd ++ r)) w.length (w.length + 3) = objectEnd := by
        rw [slice, List.drop_left]
        exact List.take_left' (by rw [length_objectEnd]; omega)
      rw [parseF_typedObject hname (parseObjectEntries_of_encodes hlongest hentries _ fuel
        (by simp only [List.length_append, length_objectEnd]; omega)), hslice,
        if_neg (by simp only [List.length_append, length_objectEnd]; omega), if_neg (by simp)]
      congr 2
      omega

/-- With enough fuel the entries of an object are parsed, up to their end. -/
theorem parseObjectEntries_of_encodes (hlongest : longest < 2 ^ 32) :
    ∀ {entries : List (String × Amf0Value)} {w : List UInt8},
      EncodesEntries longest objectEnd entries w →
      ∀ (r : List UInt8) (fuel : ℕ), (w ++ r).length < fuel →
        parseObjectEntries fuel (w ++ r) = .ok (entries, w.length)
  | _, _, _, r, 0, hfuel => by omega
  | _, _, .done, r, fuel + 1, _ => parseObjectEntries_end fuel r
  | _, _, .entry (w := w) key hkey hvalue hentries, r, fuel + 1, hfuel => by
      simp only [List.append_assoc, List.length_append, length_serializeStr] at hfuel ⊢
      rw [parseObjectEntries_key fuel hkey (hvalue.append_eq_cons _),
        parseF_of_encodes hlongest hvalue _ fuel (by simp only [List.length_append]; omega)]
      change (parseObjectEntries fuel ((w ++ _).drop w.length) >>= _) = _
      rw [List.drop_left, parseObjectEntries_of_encodes hlongest hentries r fuel
        (by rw [List.length_append]; omega)]
      change Except.ok (_, _) = Except.ok (_, _)
      congr 2
      omega

/-- With enough fuel the items of a strict array are parsed. -/
theorem parseStrictEntries_of_encodes (hlongest : longest < 2 ^ 32) :
    ∀ {i : ℕ} {items : List (String × Amf0Value)} {w : List UInt8},
      EncodesItems longest objectEnd i items w →
      ∀ (r : List UInt8) (fuel : ℕ), (w ++ r).length + 1 < fuel →
        parseStrictEntries fuel items.length i (w ++ r) = .ok (items, w.length)
  | _, _, _, _, r, 0, hfuel => by omega
  | _, _, _, .done i, r, fuel + 1, _ => rfl
  | _, _, _, .item (w := w) hvalue hitems, r, fuel + 1, hfuel => by
      obtain ⟨marker, body, hw, -⟩ := hvalue.eq_cons
      have hpos : 0 < w.length := by rw [hw, List.length_cons]; omega
      simp only [List.append_assoc, List.length_append] at hfuel ⊢
      rw [List.length_cons, parseStrictEntries,
        parseF_of_encodes hlongest hvalue _ fuel (by simp only [List.length_append]; omega)]
      change (parseStrictEntries fuel _ _ ((w ++ _).drop w.length) >>= _) = _
      rw [List.drop_left, parseStrictEntries_of_encodes hlongest hitems r fuel
        (by rw [List.length_append]; omega)]
      rfl

end

end Complete

/-! ### The parser and the grammar -/

/-- **`parse` accepts exactly the encodings**, and consumes the encoding. -/
theorem parse_eq_ok_iff {data : List UInt8} {v : Amf0Value} {n : ℕ} :
    parse data = .ok (v, n) ↔ Reads data n (Encodes (2 ^ 32 - 1) objectEnd v) := by
  constructor
  · exact (encodes_of_parseF _).value data v n
  · rintro ⟨w, r, rfl, rfl, hw⟩
    exact parseF_of_encodes (by omega) hw r _ (Nat.lt_succ_self _)

end Amf0Value

end Rtmp
