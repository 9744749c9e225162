/-
**Transport headers, written and read back.**

`TransportInfo::serialize` of `crates/protocols/src/rtsp_server/framing.rs` joins its parameters with
semicolons, and `TransportInfo::parse` takes the text apart at them and looks at each parameter by its
name.  Numbers are printed in decimal and the source in hexadecimal behind `0x`, which is no decimal
number, so the second reading of `parse_ssrc` is the one that applies.

Main definitions:

* `RtspServer.TransportInfo.params` — the parameters that are written, in order;
* `RtspServer.PlainMode` — a mode without a semicolon, and without white space at its ends.

Main results:

* `RtspServer.parseParam_eq` — what a parameter does, by its name;
* `RtspServer.parsePair_toDigits`, `RtspServer.parseSsrc_hex8` — the numbers;
* `RtspServer.parse_serialize_transport` — **a transport header is read back**, without its session.
-/

import MibeeEye.Numerals
import MibeeEye.RtspFraming

set_option relaxedAutoImplicit false
set_option autoImplicit false

namespace RtspServer

open Text Wire

/-! ### Parameters -/

/-- No white space stands at the ends of some text. -/
def TrimmedEnds (s : List Char) : Prop :=
  (∀ c ∈ s.head?, isWhitespace c = false) ∧ ∀ c ∈ s.getLast?, isWhitespace c = false

-- what is decided is one character or none, not every character
instance (s : List Char) : Decidable (TrimmedEnds s) :=
  @instDecidableAnd _ _ (Option.decidableForallMem _) (Option.decidableForallMem _)

theorem TrimmedEnds.trim_eq {s : List Char} (h : TrimmedEnds s) : trim s = s :=
  trim_eq_self h.1 h.2

/-- A name and a value without white space around them. -/
theorem TrimmedEnds.param {key value : List Char} (hkey : TrimmedEnds key) (hne : key ≠ [])
    (hvalue : TrimmedEnds value) : TrimmedEnds (key ++ '=' :: value) := by
  constructor
  · rw [List.head?_append_of_ne_nil _ hne]
    exact hkey.1
  · cases value with
    | nil =>
        rw [List.getLast?_concat]
        rintro c ⟨rfl⟩
        decide
    | cons c value =>
        rw [List.getLast?_append_of_ne_nil _ (List.cons_ne_nil _ _), List.getLast?_cons_cons]
        exact hvalue.2

/-- **What a parameter does, by its name.** -/
theorem parseParam_eq (t : TransportInfo) {key : String} {value : List Char}
    (hname : '=' ∉ key.toList) (hkey : TrimmedEnds key.toList) (hne : key.toList ≠ [])
    (hlower : String.ofList (key.toList.map Char.toLower) = key) (hvalue : TrimmedEnds value) :
    t.parseParam (key.toList ++ '=' :: value) =
      if key = "interleaved" then { t with interleaved := parseChannels value <|> t.interleaved }
      else if key = "client_port" then { t with clientPort := parsePorts value <|> t.clientPort }
      else if key = "server_port" then { t with serverPort := parsePorts value <|> t.serverPort }
      else if key = "ssrc" then { t with ssrc := parseSsrc value }
      else if key = "mode" then { t with mode := some (String.ofList value) }
      else t := by
  have hsplit : splitOnce (· == '=') (key.toList ++ '=' :: value) = some (key.toList, value) := by
    refine splitOnce_append (fun x hx => ?_) rfl value
    rw [beq_eq_false_iff_ne]
    rintro rfl
    exact hname hx
  rw [TransportInfo.parseParam, (hkey.param hne hvalue).trim_eq, hsplit]
  dsimp only
  rw [hkey.trim_eq, hvalue.trim_eq, hlower]

/-! ### Numbers -/

theorem isWhitespace_of_isDigit {c : Char} (h : c.isDigit = true) : isWhitespace c = false := by
  have hbounds : 48 ≤ c.toNat ∧ c.toNat ≤ 57 := by
    simpa [Char.isDigit, UInt32.le_iff_toNat_le] using h
  simp only [isWhitespace, Bool.or_eq_false_iff, Bool.and_eq_false_iff, decide_eq_false_iff_not,
    beq_eq_false_iff_ne]
  omega

/-- **A pair of numbers is read back.** -/
theorem parsePair_toDigits {bound a b : ℕ} (ha : a < bound) (hb : b < bound) :
    parsePair bound (Nat.toDigits 10 a ++ '-' :: Nat.toDigits 10 b) = some (a, b) := by
  have hdash : ∀ l ∈ [Nat.toDigits 10 a, Nat.toDigits 10 b], '-' ∉ l := by
    intro l hl hmem
    have hdigit : '-'.isDigit = true := by
      rcases List.mem_cons.mp hl with rfl | hl
      · exact isDigit_of_mem_toDigits hmem
      · rw [List.mem_singleton.mp hl] at hmem
        exact isDigit_of_mem_toDigits hmem
    cases hdigit
  have hsplit := List.splitOn_intercalate '-' hdash (List.cons_ne_nil _ _)
  rw [List.intercalate_cons_cons, List.intercalate_singleton, List.append_assoc,
    List.singleton_append] at hsplit
  rw [parsePair, hsplit]
  dsimp only
  rw [parseUnsigned_toDigits ha, parseUnsigned_toDigits hb]
  rfl

/-- What is printed in decimal has no white space at its ends. -/
theorem trimmedEnds_toDigits (n : ℕ) : TrimmedEnds (Nat.toDigits 10 n) :=
  ⟨fun _ hc => isWhitespace_of_isDigit (isDigit_of_mem_toDigits (List.mem_of_mem_head? hc)),
    fun _ hc => isWhitespace_of_isDigit (isDigit_of_mem_toDigits (List.mem_of_mem_getLast? hc))⟩

theorem toDigits_ne_nil (n : ℕ) : Nat.toDigits 10 n ≠ [] := by
  intro hnil
  obtain ⟨digits, hdigits, hne, -⟩ := mapM_toDigits n
  rw [hnil] at hdigits
  cases hdigits
  exact hne rfl

/-- The ends of a pair of numbers are digits. -/
theorem trimmedEnds_pair (a b : ℕ) :
    TrimmedEnds (Nat.toDigits 10 a ++ '-' :: Nat.toDigits 10 b) := by
  constructor
  · rw [List.head?_append_of_ne_nil _ (toDigits_ne_nil a)]
    exact (trimmedEnds_toDigits a).1
  · rw [List.getLast?_append_of_ne_nil _ (List.cons_ne_nil _ _),
      List.getLast?_cons_of_ne_nil (toDigits_ne_nil b)]
    exact (trimmedEnds_toDigits b).2

/-! ### Sources -/

/-- The digits of a source are no white space, and none of them is an `x`. -/
theorem mem_hex8 {n : UInt32} {c : Char} (h : c ∈ (hex8 n).toList) :
    isWhitespace c = false ∧ c ≠ 'x' ∧ c ≠ ';' := by
  obtain ⟨d, hd, rfl⟩ := mem_hexEncode h
  have hall : ∀ d : Fin 16, isWhitespace (Md5.hexDigit d) = false ∧ Md5.hexDigit d ≠ 'x' ∧
      Md5.hexDigit d ≠ ';' := by decide
  exact hall ⟨d, hd⟩

theorem trimmedEnds_hex8 (n : UInt32) : TrimmedEnds ('0' :: 'x' :: (hex8 n).toList) := by
  refine ⟨fun c hc => ?_, fun c hc => ?_⟩
  · cases hc
    decide
  · rcases List.mem_cons.mp (List.mem_of_mem_getLast? hc) with rfl | hc
    · decide
    · rcases List.mem_cons.mp hc with rfl | hc
      · decide
      · exact (mem_hex8 hc).1

/-- **A source in hexadecimal is read back**: `0x` begins no decimal number. -/
theorem parseSsrc_hex8 (n : UInt32) : parseSsrc ('0' :: 'x' :: (hex8 n).toList) = some n := by
  have hdecimal : parseUnsigned 10 (2 ^ 32) ('0' :: 'x' :: (hex8 n).toList) = none := by
    have hx : digitVal 10 'x' = none := by decide
    have hprefix : dropPrefix ['+'] ('0' :: 'x' :: (hex8 n).toList) =
        '0' :: 'x' :: (hex8 n).toList := rfl
    rw [parseUnsigned, hprefix, List.mapM_cons, List.mapM_cons, hx]
    cases digitVal 10 '0' <;> rfl
  -- no second `0x` stands behind the first one
  have hstrip : trimStartMatches "0x".toList ('0' :: 'x' :: (hex8 n).toList) =
      (hex8 n).toList := by
    have hcut := trimStartMatches_append (show "0x".toList ≠ [] by decide) (hex8 n).toList
    rw [show "0x".toList = ['0', 'x'] by decide, List.cons_append, List.cons_append,
      List.nil_append] at hcut
    rw [show "0x".toList = ['0', 'x'] by decide, hcut, trimStartMatches_of_not]
    intro hx
    exact (mem_hex8 (hx.subset (show 'x' ∈ ['0', 'x'] by decide))).2.1 rfl
  have hhex : parseUnsigned 16 (2 ^ 32) (hex8 n).toList = some n.toNat :=
    parseUnsigned_hexEncode (by omega) n.toNat_lt n.toNat_lt
  rw [parseSsrc, (trimmedEnds_hex8 n).trim_eq, hdecimal, hstrip, hhex]
  simp

/-! ### The parameters of a header -/

/-- A pair of numbers under a name. -/
def pairParam (key : String) (a b : ℕ) : List Char :=
  key.toList ++ '=' :: (Nat.toDigits 10 a ++ '-' :: Nat.toDigits 10 b)

/-- What stands behind the transport, in order. -/
def TransportInfo.params (t : TransportInfo) : List (List Char) :=
  (t.interleaved.map fun p => pairParam "interleaved" p.1.toNat p.2.toNat).toList ++
    (t.clientPort.map fun p => pairParam "client_port" p.1.toNat p.2.toNat).toList ++
    (t.serverPort.map fun p => pairParam "server_port" p.1.toNat p.2.toNat).toList ++
    (t.ssrc.map fun ssrc => "ssrc".toList ++ '=' :: '0' :: 'x' :: (hex8 ssrc).toList).toList ++
    (t.mode.map fun mode => "mode".toList ++ '=' :: mode.toList).toList

/-- What is written, parameter by parameter. -/
theorem toList_serialize (t : TransportInfo) :
    t.serialize.toList = List.intercalate [';'] ("RTP/AVP/TCP".toList :: t.params) := by
  have hstring (s : String) : toString s = s := rfl
  have hchannel (n : UInt8) : (toString n).toList = Nat.toDigits 10 n.toNat := Nat.toList_repr
  have hport (n : UInt16) : (toString n).toList = Nat.toDigits 10 n.toNat := Nat.toList_repr
  rw [TransportInfo.serialize, String.toList_intercalate, TransportInfo.params]
  congr 1
  simp [Option.toList_map, Function.comp_def, pairParam, hstring, hchannel, hport]

/-- The modes that can be written between semicolons. -/
def PlainMode (t : TransportInfo) : Prop :=
  ∀ mode ∈ t.mode, ';' ∉ mode.toList ∧ TrimmedEnds mode.toList

instance (t : TransportInfo) : Decidable (PlainMode t) := Option.decidableForallMem _

theorem not_mem_pairParam {key : String} (hkey : ';' ∉ key.toList) (a b : ℕ) :
    ';' ∉ pairParam key a b := by
  have hdigits (n : ℕ) : ';' ∉ Nat.toDigits 10 n := fun h =>
    absurd (isDigit_of_mem_toDigits h) (by decide)
  simp [pairParam, hkey, hdigits]

/-- No parameter holds the separator. -/
theorem not_mem_params {t : TransportInfo} (h : PlainMode t) :
    ∀ param ∈ "RTP/AVP/TCP".toList :: t.params, ';' ∉ param := by
  have hsource (n : UInt32) : ';' ∉ (hex8 n).toList := fun hmem => (mem_hex8 hmem).2.2 rfl
  intro param hparam
  simp only [TransportInfo.params, List.mem_cons, List.mem_append, Option.mem_toList,
    Option.map_eq_some_iff] at hparam
  rcases hparam with rfl | (((⟨p, -, rfl⟩ | ⟨p, -, rfl⟩) | ⟨p, -, rfl⟩) | ⟨n, -, rfl⟩) |
    ⟨mode, hmode, rfl⟩
  · decide
  · exact not_mem_pairParam (by decide) _ _
  · exact not_mem_pairParam (by decide) _ _
  · exact not_mem_pairParam (by decide) _ _
  · simp [hsource]
  · simp [(h mode hmode).1]

/-! ### Reading them back -/

theorem parseChannels_pair (p : UInt8 × UInt8) :
    parseChannels (Nat.toDigits 10 p.1.toNat ++ '-' :: Nat.toDigits 10 p.2.toNat) = some p := by
  rw [parseChannels, parsePair_toDigits p.1.toNat_lt p.2.toNat_lt]
  simp

theorem parsePorts_pair (p : UInt16 × UInt16) :
    parsePorts (Nat.toDigits 10 p.1.toNat ++ '-' :: Nat.toDigits 10 p.2.toNat) = some p := by
  rw [parsePorts, parsePair_toDigits p.1.toNat_lt p.2.toNat_lt]
  simp

theorem parseParam_interleaved (t : TransportInfo) (p : UInt8 × UInt8) :
    t.parseParam (pairParam "interleaved" p.1.toNat p.2.toNat) =
      { t with interleaved := some p } := by
  rw [pairParam, parseParam_eq t (by decide) (by decide) (by decide) (by decide)
    (trimmedEnds_pair _ _), if_pos rfl, parseChannels_pair]
  rfl

theorem parseParam_clientPort (t : TransportInfo) (p : UInt16 × UInt16) :
    t.parseParam (pairParam "client_port" p.1.toNat p.2.toNat) =
      { t with clientPort := some p } := by
  rw [pairParam, parseParam_eq t (by decide) (by decide) (by decide) (by decide)
    (trimmedEnds_pair _ _), if_neg (by decide), if_pos rfl, parsePorts_pair]
  rfl

theorem parseParam_serverPort (t : TransportInfo) (p : UInt16 × UInt16) :
    t.parseParam (pairParam "server_port" p.1.toNat p.2.toNat) =
      { t with serverPort := some p } := by
  rw [pairParam, parseParam_eq t (by decide) (by decide) (by decide) (by decide)
    (trimmedEnds_pair _ _), if_neg (by decide), if_neg (by decide), if_pos rfl, parsePorts_pair]
  rfl

theorem parseParam_ssrc (t : TransportInfo) (n : UInt32) :
    t.parseParam ("ssrc".toList ++ '=' :: '0' :: 'x' :: (hex8 n).toList) =
      { t with ssrc := some n } := by
  rw [parseParam_eq t (by decide) (by decide) (by decide) (by decide) (trimmedEnds_hex8 n),
    if_neg (by decide), if_neg (by decide), if_neg (by decide), if_pos rfl, parseSsrc_hex8]

theorem parseParam_mode (t : TransportInfo) {mode : String} (h : TrimmedEnds mode.toList) :
    t.parseParam ("mode".toList ++ '=' :: mode.toList) = { t with mode := some mode } := by
  rw [parseParam_eq t (by decide) (by decide) (by decide) (by decide) h, if_neg (by decide),
    if_neg (by decide), if_neg (by decide), if_neg (by decide), if_pos rfl, String.ofList_toList]

/-- A parameter that may be absent sets its field. -/
theorem foldl_field {α : Type} {o : Option α} {param : α → List Char} {t : TransportInfo}
    (set : Option α → TransportInfo) (hnone : set none = t)
    (hsome : ∀ a ∈ o, t.parseParam (param a) = set (some a)) :
    (o.map param).toList.foldl TransportInfo.parseParam t = set o := by
  cases o with
  | none => exact hnone.symm
  | some a => exact hsome a rfl

/-- **A transport header is read back**, without its session. -/
theorem parse_serialize_transport (t : TransportInfo) (h : PlainMode t) :
    TransportInfo.parse t.serialize = { t with sessionId := "" } := by
  rw [TransportInfo.parse, toList_serialize,
    List.splitOn_intercalate ';' (not_mem_params h) (List.cons_ne_nil _ _), List.foldl_cons,
    show TransportInfo.parseParam {} "RTP/AVP/TCP".toList = {} by decide]
  simp only [TransportInfo.params, List.foldl_append]
  -- each parameter sets its own field of what the ones before it left
  rw [foldl_field (fun o => { interleaved := o }) rfl fun p _ => parseParam_interleaved _ p,
    foldl_field (fun o => { interleaved := t.interleaved, clientPort := o }) rfl
      fun p _ => parseParam_clientPort _ p,
    foldl_field (fun o => { t with serverPort := o, sessionId := "", ssrc := none, mode := none })
      rfl fun p _ => parseParam_serverPort _ p,
    foldl_field (fun o => { t with sessionId := "", ssrc := o, mode := none }) rfl
      fun n _ => parseParam_ssrc _ n,
    foldl_field (fun o => { t with sessionId := "", mode := o }) rfl
      fun mode hmode => parseParam_mode _ (h mode hmode).2]

/-- A header with every parameter. -/
theorem parse_serialize_transport_full :
    TransportInfo.parse (TransportInfo.serialize
        { interleaved := some (0, 255), clientPort := some (0, 65535),
          serverPort := some (5004, 5005), sessionId := "12345678", ssrc := some 0x0000ABCD,
          mode := some "PLAY" }) =
      { interleaved := some (0, 255), clientPort := some (0, 65535),
        serverPort := some (5004, 5005), sessionId := "", ssrc := some 0x0000ABCD,
        mode := some "PLAY" } :=
  parse_serialize_transport _ (by decide)

end RtspServer
