/-
**Digest authentication of the RTSP server.**

`verify_digest_auth` in `crates/protocols/src/rtsp_server/auth.rs` takes the parameters of an
`Authorization` header apart, computes the response that RFC 2617 asks for, and compares it, the
realm and the uri with what the client sent.  The comparison is meant to take the same time
whatever it finds: it folds the differences of all bytes into one byte.  The fold is by exclusive
or, so two differences can cancel, and a text passes for any other of the same length and the same
sum.

Main definitions:

* `RtspServer.constantTimeStrEq` — the comparison;
* `RtspServer.parseAuthParams`, `RtspServer.verifyDigestAuth` — the header and its verification;
* `RtspServer.rfc2617Response`, `RtspServer.Credentialed` — what the header has to say;
* `RtspServer.SameSum`, `RtspServer.Cancels` — the texts the comparison takes for equal, and the
  headers in which it is wrong about one.

Main results:

* `RtspServer.constantTimeStrEq_iff` — **what the comparison compares**;
* `RtspServer.verifyDigestAuth_iff` — what the verification accepts;
* `RtspServer.verifyDigestAuth_sound_iff` — **a header is judged correctly exactly when no
  differences cancel in it**.
-/

import MibeeEye.Text
import MibeeEye.Md5

set_option relaxedAutoImplicit false
set_option autoImplicit false

namespace RtspServer

open Text Md5 Wire

/-! ### The comparison -/

/-- `constant_time_str_eq`. -/
def constantTimeStrEq (a b : String) : Bool :=
  if (asBytes a).length ≠ (asBytes b).length then false
  else ((asBytes a).zip (asBytes b)).foldl (fun acc p => acc ^^^ p.1 ^^^ p.2) 0 == 0

/-! ### The header -/

/-- `HashMap<String, String>`, the latest entry first. -/
abbrev Params : Type := List (String × String)

/-- The text after a value, up to the next parameter. -/
def nextParam (remaining : List Char) : List Char := trim (dropPrefix [','] (trim remaining))

theorem length_nextParam_le (s : List Char) : (nextParam s).length ≤ s.length :=
  (length_trim_le _).trans ((length_dropPrefix_le _ _).trans (length_trim_le s))

/-- An unquoted value ends at a comma or a blank. -/
def endsValue (c : Char) : Bool := c == ',' || c == ' '

/-- One parameter: its name and value, and the text after it; none if there is no `=`. -/
def parseParam (remaining : List Char) : Except String (Option ((String × String) × List Char)) :=
  match splitOnce (· == '=') (trim remaining) with
  | none => .ok none
  | some (key, rest) =>
      match trim rest with
      | '"' :: quoted =>
          match splitOnce (· == '"') quoted with
          | none => .error "Unterminated quoted string in auth params"
          | some (value, rest) =>
              .ok (some ((String.ofList (trim key), String.ofList value), nextParam rest))
      | rest =>
          let value := rest.takeWhile fun c => !endsValue c
          .ok (some ((String.ofList (trim key), String.ofList value),
            nextParam (rest.dropWhile fun c => !endsValue c)))

theorem length_parseParam {s rest : List Char} {param : String × String}
    (h : parseParam s = .ok (some (param, rest))) : rest.length < s.length := by
  unfold parseParam at h
  split at h
  · cases h
  · rename_i key rest₁ hkey
    have hcut := length_splitOnce hkey
    have htrim := length_trim_le s
    have htrim₁ := length_trim_le rest₁
    split at h
    · rename_i quoted hquoted
      split at h
      · cases h
      · rename_i value rest₂ hvalue
        cases h
        have hcut₂ := length_splitOnce hvalue
        have hnext := length_nextParam_le rest₂
        rw [hquoted, List.length_cons] at htrim₁
        omega
    · cases h
      have hnext := length_nextParam_le ((trim rest₁).dropWhile fun c => !endsValue c)
      have hdrop := (List.dropWhile_suffix (l := trim rest₁) fun c => !endsValue c).length_le
      omega

/-- The loop of `parse_auth_params`. -/
def parseAuthParamsLoop (remaining : List Char) (params : Params) : Except String Params :=
  if remaining.isEmpty then .ok params
  else
    match _h : parseParam remaining with
    | .error e => .error e
    | .ok none => .ok params
    | .ok (some (param, rest)) => parseAuthParamsLoop rest (param :: params)
termination_by remaining.length
decreasing_by exact length_parseParam ‹_›

/-- `parse_auth_params`. -/
def parseAuthParams (input : List Char) : Except String Params :=
  parseAuthParamsLoop (trim input) []

/-- The parameters of a header, after the name of the scheme. -/
def digestParams (authHeader : String) : Option (List Char) :=
  let header := trim authHeader.toList
  (header.dropPrefix? "Digest".toList <|> header.dropPrefix? "digest".toList).map trim

/-- The response that RFC 2617 asks for: with `qop`, over the counter and the nonce of the client
too. -/
def rfc2617Response (params : Params) (method uri username password realm nonce : String) :
    String :=
  let ha1 := md5Hex (asBytes s!"{username}:{realm}:{password}")
  let ha2 := md5Hex (asBytes s!"{method}:{uri}")
  match params.lookup "qop" with
  | some qop =>
      let nc := (params.lookup "nc").getD "00000001"
      let cnonce := (params.lookup "cnonce").getD ""
      md5Hex (asBytes s!"{ha1}:{nonce}:{nc}:{cnonce}:{qop}:{ha2}")
  | none => md5Hex (asBytes s!"{ha1}:{nonce}:{ha2}")

/-- `verify_digest_auth`: where the source returns false early, there is no verdict here. -/
def verifyDigestAuth (authHeader method uri username password realm : String) : Bool :=
  Option.getD (do
    let digest ← digestParams authHeader
    let params ← (parseAuthParams digest).toOption
    let clientUsername ← params.lookup "username"
    guard (clientUsername = username)
    let clientRealm ← params.lookup "realm"
    let clientNonce ← params.lookup "nonce"
    let clientUri ← params.lookup "uri"
    let clientResponse ← params.lookup "response"
    let expected := rfc2617Response params method uri username password realm clientNonce
    return constantTimeStrEq clientResponse expected && constantTimeStrEq clientRealm realm &&
      constantTimeStrEq clientUri uri) false

/-- `build_digest_challenge`. -/
def buildDigestChallenge (realm nonce : String) : String :=
  s!"Digest realm=\"{realm}\", nonce=\"{nonce}\", algorithm=MD5, stale=FALSE"

/-! ### What the comparison compares -/

/-- Two texts of the same length whose bytes have the same exclusive or. -/
def SameSum (a b : String) : Prop :=
  (asBytes a).length = (asBytes b).length ∧ xorAll (asBytes a) = xorAll (asBytes b)

theorem SameSum.refl (a : String) : SameSum a a := ⟨rfl, rfl⟩

/-- **What the comparison compares**: the lengths and the sums. -/
theorem constantTimeStrEq_iff {a b : String} : constantTimeStrEq a b = true ↔ SameSum a b := by
  unfold constantTimeStrEq SameSum
  by_cases h : (asBytes a).length = (asBytes b).length
  · rw [if_neg (not_not.2 h), foldl_xor_zip h, UInt8.zero_xor, beq_iff_eq, UInt8.xor_eq_zero_iff]
    exact ⟨fun hsum => ⟨h, hsum⟩, fun hsum => hsum.2⟩
  · rw [if_pos h]
    exact ⟨Bool.false_ne_true.elim, fun hsum => absurd hsum.1 h⟩

/-! ### What the verification accepts -/

/-- A header has the scheme, and parameters among which are the username and the four others that
are needed. -/
structure Sends (authHeader username : String) (params : Params)
    (realm nonce uri response : String) : Prop where
  parsed : ∃ digest, digestParams authHeader = some digest ∧ parseAuthParams digest = .ok params
  username : params.lookup "username" = some username
  realm : params.lookup "realm" = some realm
  nonce : params.lookup "nonce" = some nonce
  uri : params.lookup "uri" = some uri
  response : params.lookup "response" = some response

/-- A header has one reading. -/
theorem Sends.unique {authHeader username : String} {params params' : Params}
    {realm realm' nonce nonce' uri uri' response response' : String}
    (h : Sends authHeader username params realm nonce uri response)
    (h' : Sends authHeader username params' realm' nonce' uri' response') :
    params = params' ∧ realm = realm' ∧ nonce = nonce' ∧ uri = uri' ∧ response = response' := by
  obtain ⟨digest, hdigest, hparams⟩ := h.parsed
  obtain ⟨digest', hdigest', hparams'⟩ := h'.parsed
  obtain rfl : digest = digest' := Option.some.inj (hdigest.symm.trans hdigest')
  obtain rfl : params = params' := Except.ok.inj (hparams.symm.trans hparams')
  exact ⟨rfl, Option.some.inj (h.realm.symm.trans h'.realm),
    Option.some.inj (h.nonce.symm.trans h'.nonce), Option.some.inj (h.uri.symm.trans h'.uri),
    Option.some.inj (h.response.symm.trans h'.response)⟩

variable (authHeader method uri username password realm : String)

/-- **The header carries the credentials**: its username, realm and uri are the right ones, and its
response is the one that RFC 2617 asks for. -/
def Credentialed : Prop :=
  ∃ params nonce, Sends authHeader username params realm nonce uri
    (rfc2617Response params method uri username password realm nonce)

theorem guard_eq_some {p : Prop} [Decidable p] {u : Unit} :
    (guard p : Option Unit) = some u ↔ p := by
  by_cases hp : p <;> simp [guard, hp]

theorem toOption_eq_some {ε α : Type} {x : Except ε α} {a : α} :
    x.toOption = some a ↔ x = .ok a := by
  cases x <;> simp [Except.toOption]

/-- What the code accepts: the response, the realm and the uri have the right sums. -/
theorem verifyDigestAuth_iff :
    verifyDigestAuth authHeader method uri username password realm = true ↔
      ∃ params clientRealm nonce clientUri response,
        Sends authHeader username params clientRealm nonce clientUri response ∧
        SameSum response (rfc2617Response params method uri username password realm nonce) ∧
        SameSum clientRealm realm ∧ SameSum clientUri uri := by
  have hverdict : ∀ x : Option Bool, x.getD false = true ↔ x = some true := by
    intro x
    cases x <;> simp
  simp only [verifyDigestAuth, hverdict, Option.bind_eq_bind, Option.bind_eq_some_iff,
    guard_eq_some, toOption_eq_some, Option.pure_def, Option.some.injEq, Bool.and_eq_true, constantTimeStrEq_iff]
  constructor
  · rintro ⟨digest, hdigest, params, hparams, _, husername, -, rfl, clientRealm, hrealm, nonce,
      hnonce, clientUri, huri, response, hresponse, ⟨hsum, hsum₁⟩, hsum₂⟩
    exact ⟨params, clientRealm, nonce, clientUri, response,
      ⟨⟨digest, hdigest, hparams⟩, husername, hrealm, hnonce, huri, hresponse⟩, hsum, hsum₁, hsum₂⟩
  · rintro ⟨params, clientRealm, nonce, clientUri, response, hsends, hsum, hsum₁, hsum₂⟩
    obtain ⟨digest, hdigest, hparams⟩ := hsends.parsed
    exact ⟨digest, hdigest, params, hparams, username, hsends.username, (), rfl, clientRealm,
      hsends.realm, nonce, hsends.nonce, clientUri, hsends.uri, response, hsends.response,
      ⟨hsum, hsum₁⟩, hsum₂⟩

/-- Everything in the header has the right sum, and yet something in it is wrong. -/
def Cancels : Prop :=
  ∃ params clientRealm nonce clientUri response,
    Sends authHeader username params clientRealm nonce clientUri response ∧
    SameSum response (rfc2617Response params method uri username password realm nonce) ∧
    SameSum clientRealm realm ∧ SameSum clientUri uri ∧
    ¬ (response = rfc2617Response params method uri username password realm nonce ∧
      clientRealm = realm ∧ clientUri = uri)

/-- **A header is judged correctly exactly when no differences cancel in it.** -/
theorem verifyDigestAuth_sound_iff :
    (verifyDigestAuth authHeader method uri username password realm = true ↔
      Credentialed authHeader method uri username password realm) ↔
    ¬ Cancels authHeader method uri username password realm := by
  constructor
  · rintro hsound
      ⟨params, clientRealm, nonce, clientUri, response, hsends, hsum, hsum₁, hsum₂, hwrong⟩
    obtain ⟨params', nonce', hright⟩ := hsound.1 ((verifyDigestAuth_iff ..).2
      ⟨params, clientRealm, nonce, clientUri, response, hsends, hsum, hsum₁, hsum₂⟩)
    obtain ⟨rfl, hrealm, rfl, huri, hresponse⟩ := hsends.unique hright
    exact hwrong ⟨hresponse, hrealm, huri⟩
  · intro hno
    rw [verifyDigestAuth_iff]
    constructor
    · rintro ⟨params, clientRealm, nonce, clientUri, response, hsends, hsum, hsum₁, hsum₂⟩
      by_contra hnot
      refine hno ⟨params, clientRealm, nonce, clientUri, response, hsends, hsum, hsum₁, hsum₂, ?_⟩
      rintro ⟨rfl, rfl, rfl⟩
      exact hnot ⟨params, nonce, hsends⟩
    · rintro ⟨params, nonce, hsends⟩
      exact ⟨params, realm, nonce, uri, _, hsends, SameSum.refl _, SameSum.refl _, SameSum.refl _⟩

/-! ### A response with two digits swapped -/

/-- The parameters of the header of the source's test, but for the first two digits of the response,
which are swapped. -/
def swappedParams : Params := [
  ("response", "872503d37afc3c47ea6307fb0f92ab37"), ("uri", "rtsp://localhost:8554/webcam"),
  ("nonce", "abc123"), ("realm", "test"), ("username", "admin")]

/-- Their header. -/
def swappedHeader : String :=
  "Digest username=\"admin\", realm=\"test\", nonce=\"abc123\", " ++
    "uri=\"rtsp://localhost:8554/webcam\", response=\"872503d37afc3c47ea6307fb0f92ab37\""

/-- The header is read as these parameters, and the right response has the same sum. -/
theorem computed_swapped :
    (digestParams swappedHeader).map parseAuthParams = some (.ok swappedParams) ∧
    rfc2617Response swappedParams "DESCRIBE" "rtsp://localhost:8554/webcam" "admin" "secret" "test"
      "abc123" = "782503d37afc3c47ea6307fb0f92ab37" ∧
    SameSum "872503d37afc3c47ea6307fb0f92ab37" "782503d37afc3c47ea6307fb0f92ab37" := by
  unfold SameSum
  decide +kernel

theorem swappedHeader_sends : Sends swappedHeader "admin" swappedParams "test" "abc123"
    "rtsp://localhost:8554/webcam" "872503d37afc3c47ea6307fb0f92ab37" where
  parsed := Option.map_eq_some_iff.1 computed_swapped.1
  username := rfl
  realm := rfl
  nonce := rfl
  uri := rfl
  response := rfl

/-- The swapped response is accepted. -/
theorem swapped_response_accepted :
    verifyDigestAuth swappedHeader "DESCRIBE" "rtsp://localhost:8554/webcam" "admin" "secret"
      "test" = true ∧
    ¬ Credentialed swappedHeader "DESCRIBE" "rtsp://localhost:8554/webcam" "admin" "secret"
      "test" := by
  constructor
  · refine (verifyDigestAuth_iff ..).2
      ⟨_, _, _, _, _, swappedHeader_sends, ?_, SameSum.refl _, SameSum.refl _⟩
    rw [computed_swapped.2.1]
    exact computed_swapped.2.2
  · rintro ⟨params, nonce, hsends⟩
    obtain ⟨rfl, -, rfl, -, hresponse⟩ := swappedHeader_sends.unique hsends
    rw [computed_swapped.2.1] at hresponse
    revert hresponse
    decide

end RtspServer
