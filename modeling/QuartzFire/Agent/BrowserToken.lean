import QuartzFire.Agent.Token
import QuartzFire.Foundation.Fallible
import QuartzFire.Foundation.JsNumber

/-!
# The token check of the browser

The form checks a token before it is committed.  It takes a token apart as the
device does but for the port, which it reads as any number.
-/

namespace QuartzFire.Agent

/-! ## The check -/

structure ParsedEnrollToken where
  gatewayHost : String
  gatewayPort : Nat
  orgId : String
  tokenId : String
  deriving DecidableEq

/-- `length` of a text counts UTF-16 units. -/
def utf16Length (text : List Char) : Nat :=
  (text.map fun char => if char.val < 0x10000 then 1 else 2).sum

def sliceBrackets (host : List Char) : List Char :=
  if host.head? = some '[' ∧ host.getLast? = some ']' then
    (host.drop 1).dropLast
  else host

/-- `Number` of a port, if that is an integer from 1 to 65535. -/
def browserPort (text : List Char) : Option Nat :=
  match JsNumber.number text with
  | some (false, value) => value.whole.filter fun port =>
      decide (1 ≤ port ∧ port ≤ 65535)
  | _ => none

def validateGateway (segment : List Char) :
    Except String (List Char × Nat) :=
  match rsplitOnce ':' segment with
  | none => .error "Segment 2 (gateway) must be host:port."
  | some (front, portText) =>
      if front = [] then .error "Segment 2 (gateway) must be host:port."
      else
        let host := sliceBrackets front
        if host = [] then .error "Segment 2 (gateway) must be host:port."
        else
          match browserPort portText with
          | none => .error
              "Segment 2 (gateway) has an invalid port (expected 1-65535)."
          | some port => .ok (host, port)

def validateTokenId (segment : List Char) : Except String (List Char) :=
  match splitOnce '.' segment with
  | none => .error
      "Segment 4 (token) must be token_id.secret with both parts non-empty."
  | some (tokenId, secret) =>
      if tokenId = [] ∨ secret = [] then .error
        "Segment 4 (token) must be token_id.secret with both parts non-empty."
      else .ok tokenId

def validateFingerprint (segment : List Char) : Except String Unit :=
  match stripPrefix "sha256:".toList segment with
  | none => .error "Segment 5 (CA fingerprint) must start with 'sha256:'."
  | some hex =>
      if hex.length ≠ 64 ∨ !hex.all isHexDigit then .error
        ("Segment 5 (CA fingerprint) must be 64 hex characters " ++
          "after 'sha256:'.")
      else .ok ()

def validateEnrollToken (raw : String) : Except String ParsedEnrollToken :=
  if utf16Length raw.toList = 0 then .error "Paste an enrollment token."
  else if utf16Length raw.toList > 1024 then
    .error "Token is too long — check the paste."
  else if !raw.toList.all isAsciiGraphic then
    .error ("Token contains whitespace or unusual characters — " ++
      "paste it as a single unbroken line.")
  else
    match raw.toList.splitOn '|' with
    | [version, gateway, org, token, fingerprint] =>
        if version ≠ "QC1".toList then
          .error ("Segment 1 (version) must be 'QC1', found '" ++
            String.ofList version ++ "'.")
        else do
          let (host, port) ← validateGateway gateway
          if org = [] then .error "Segment 3 (org id) is empty."
          else
            let tokenId ← validateTokenId token
            validateFingerprint fingerprint
            return {
              gatewayHost := String.ofList host
              gatewayPort := port
              orgId := String.ofList org
              tokenId := String.ofList tokenId }
    | segments => .error ("Token must have 5 |-separated segments, found " ++
        toString segments.length ++ ".")

/-! ## Tokens laid out as both take them apart -/

structure TokenParts where
  host : List Char
  port : List Char
  org : List Char
  tokenId : List Char
  secret : List Char
  hex : List Char

/-- A token that is well formed in every part but perhaps the port. -/
structure LaidOut (raw : String) (parts : TokenParts) : Prop where
  graphic : raw.toList.all isAsciiGraphic = true
  short : raw.toList.length ≤ 1024
  segments : raw.toList.splitOn '|' =
    ["QC1".toList, parts.host ++ ':' :: parts.port, parts.org,
      parts.tokenId ++ '.' :: parts.secret, "sha256:".toList ++ parts.hex]
  host : unbracket parts.host ≠ []
  port : ':' ∉ parts.port
  org : parts.org ≠ []
  firstDot : '.' ∉ parts.tokenId
  tokenId : parts.tokenId ≠ []
  secret : parts.secret ≠ []
  hex : parts.hex.length = 64 ∧ parts.hex.all isHexDigit = true

theorem LaidOut.unique {raw : String} {left right : TokenParts}
    (first : LaidOut raw left) (second : LaidOut raw right) : left = right := by
  have same := first.segments.symm.trans second.segments
  simp only [List.cons.injEq, true_and, and_true] at same
  obtain ⟨gateway, org, token, fingerprint⟩ := same
  have gateways : some (left.host, left.port) =
      some (right.host, right.port) := by
    rw [← rsplitOnce_eq_some.mpr ⟨rfl, first.port⟩, gateway,
      rsplitOnce_eq_some.mpr ⟨rfl, second.port⟩]
  have tokens : some (left.tokenId, left.secret) =
      some (right.tokenId, right.secret) := by
    rw [← splitOnce_eq_some.mpr ⟨rfl, first.firstDot⟩, token,
      splitOnce_eq_some.mpr ⟨rfl, second.firstDot⟩]
  have hex := List.append_cancel_left fingerprint
  cases left
  cases right
  simp_all

theorem unbracket_eq_sliceBrackets (host : List Char) :
    unbracket host = sliceBrackets host := by
  unfold unbracket sliceBrackets
  split
  · rename_i rest
    cases rest with
    | nil => simp
    | cons first rest => simp [List.getLast?_cons_cons]
  · rename_i other
    rw [if_neg]
    rintro ⟨opens, -⟩
    cases host with
    | nil => cases opens
    | cons first rest =>
        cases opens
        exact other rest rfl

theorem isAsciiGraphic_val {char : Char} (graphic : isAsciiGraphic char = true) :
    char.val < 0x80 := by
  unfold isAsciiGraphic at graphic
  obtain ⟨-, below⟩ := Bool.and_eq_true_iff.mp graphic
  have bound := of_decide_eq_true below
  exact UInt32.lt_of_le_of_lt bound (by decide)

theorem utf16Length_graphic {text : List Char}
    (graphic : text.all isAsciiGraphic = true) :
    utf16Length text = text.length := by
  induction text with
  | nil => rfl
  | cons char rest ih =>
      rw [List.all_cons, Bool.and_eq_true] at graphic
      have small := isAsciiGraphic_val graphic.1
      have unit : char.val < 0x10000 := UInt32.lt_trans small (by decide)
      have others := ih graphic.2
      unfold utf16Length at others ⊢
      rw [List.map_cons, List.sum_cons, if_pos unit, others, List.length_cons,
        Nat.add_comm]

theorem utf8ByteSize_graphic {text : List Char}
    (graphic : text.all isAsciiGraphic = true) :
    (String.ofList text).utf8ByteSize = text.length := by
  induction text with
  | nil => rfl
  | cons char rest ih =>
      rw [List.all_cons, Bool.and_eq_true] at graphic
      have small := isAsciiGraphic_val graphic.1
      have byte : char.utf8Size = 1 := by
        unfold Char.utf8Size
        rw [if_pos]
        exact Nat.le_of_lt_succ small
      rw [String.ofList_cons, String.utf8ByteSize_append,
        String.utf8ByteSize_singleton, byte, ih graphic.2, List.length_cons,
        Nat.add_comm]

/-! ## Ports -/

/-- The port as the device reads it. -/
def devicePort (text : List Char) : Option Nat :=
  (parsePort text).filter fun port => decide (1 ≤ port)

theorem number_digits {text digits : List Char} (plain : Digits text digits) :
    JsNumber.number text =
      some (false, JsNumber.nearest (Nat.ofDigitChars 10 digits 0) 1) := by
  obtain ⟨signed, some', plain⟩ := plain
  have reads := JsNumber.unsignedDecimal_digits some' plain
  unfold JsNumber.number
  rcases signed with rfl | rfl
  · rw [JsNumber.radixLiteral_digits plain]
    dsimp only
    split
    · exact absurd rfl some'
    · exact absurd rfl (head_digits plain rfl _)
    · exact absurd rfl (head_digits plain rfl _)
    · rw [reads]
      rfl
  · have sign : JsNumber.radixLiteral ('+' :: digits) = none := by
      simp [JsNumber.radixLiteral]
    rw [sign]
    show (JsNumber.unsignedDecimal digits).map (fun value => (false, value)) = _
    rw [reads]
    rfl

theorem devicePort_eq_some {text : List Char} {port : Nat} :
    devicePort text = some port ↔
      ∃ digits, Digits text digits ∧ Nat.ofDigitChars 10 digits 0 = port ∧
        1 ≤ port ∧ port ≤ 65535 := by
  unfold devicePort parsePort
  rw [Option.filter_eq_some_iff, parseUnsigned_eq_some, decide_eq_true_eq]
  constructor
  · rintro ⟨⟨digits, plain, same, fits⟩, positive⟩
    exact ⟨digits, plain, same, positive, Nat.le_of_lt_succ fits⟩
  · rintro ⟨digits, plain, same, positive, fits⟩
    exact ⟨⟨digits, plain, same, Nat.lt_succ_of_le fits⟩, positive⟩

theorem browserPort_eq_some {text : List Char} {port : Nat} :
    browserPort text = some port ↔
      ∃ value, JsNumber.number text = some (false, value) ∧
        value.whole = some port ∧ 1 ≤ port ∧ port ≤ 65535 := by
  unfold browserPort
  constructor
  · intro reads
    split at reads
    · rename_i value same
      rw [Option.filter_eq_some_iff, decide_eq_true_eq] at reads
      exact ⟨value, same, reads⟩
    · cases reads
  · rintro ⟨value, same, whole, range⟩
    rw [same]
    exact Option.filter_eq_some_iff.mpr ⟨whole, decide_eq_true range⟩

/-- Digits are read as they are, and as a number out of range where a script
rounds them. -/
theorem browserPort_digits {text digits : List Char} {port : Nat}
    (plain : Digits text digits) :
    browserPort text = some port ↔
      Nat.ofDigitChars 10 digits 0 = port ∧ 1 ≤ port ∧ port ≤ 65535 := by
  unfold browserPort
  rw [number_digits plain]
  dsimp only
  rw [Option.filter_eq_some_iff, decide_eq_true_eq, and_congr_left_iff]
  rintro ⟨-, fits⟩
  by_cases small : Nat.ofDigitChars 10 digits 0 < 2 ^ 53
  · rw [JsNumber.whole_nearest small, Option.some.injEq]
  · constructor
    · intro reads
      have large := JsNumber.le_whole_nearest (Nat.le_of_not_lt small) reads
      omega
    · intro same
      omega

theorem browserPort_of_devicePort {text : List Char} {port : Nat}
    (reads : devicePort text = some port) : browserPort text = some port := by
  obtain ⟨digits, plain, value⟩ := devicePort_eq_some.mp reads
  exact (browserPort_digits plain).mpr value

/-! ## What each of them accepts -/

theorem unbracket_nil : unbracket [] = [] := rfl

theorem validateGateway_eq_ok {segment host : List Char} {port : Nat} :
    validateGateway segment = .ok (host, port) ↔
      ∃ front portText, segment = front ++ ':' :: portText ∧
        ':' ∉ portText ∧ unbracket front ≠ [] ∧ unbracket front = host ∧
        browserPort portText = some port := by
  unfold validateGateway
  constructor
  · intro ok
    split at ok
    · cases ok
    · rename_i front portText split'
      obtain ⟨whole, last⟩ := rsplitOnce_eq_some.mp split'
      obtain ⟨-, ok⟩ := refuse_eq_ok.mp ok
      obtain ⟨named, ok⟩ := refuse_eq_ok.mp ok
      rw [← unbracket_eq_sliceBrackets] at named ok
      split at ok
      · cases ok
      · rename_i value reads
        cases ok
        exact ⟨front, portText, whole, last, named, rfl, reads⟩
  · rintro ⟨front, portText, whole, last, named, rfl, reads⟩
    have some' : front ≠ [] := by
      rintro rfl
      exact named unbracket_nil
    rw [rsplitOnce_eq_some.mpr ⟨whole, last⟩]
    dsimp only
    rw [if_neg some', ← unbracket_eq_sliceBrackets, if_neg named, reads]

theorem mem_of_mem_unbracket {char : Char} {host : List Char}
    (member : char ∈ unbracket host) : char ∈ host := by
  unfold unbracket at member
  split at member
  · split at member
    · exact List.mem_cons_of_mem _ ((List.dropLast_sublist _).mem member)
    · exact member
  · exact member

theorem parseGateway_split {segment front portText : List Char}
    (split' : rsplitOnce ':' segment = some (front, portText)) :
    parseGateway segment =
      if (unbracket front).isEmpty || (unbracket front).contains '|' then
        .error (.gatewayShape (String.ofList segment))
      else
        match devicePort portText with
        | some port => .ok (unbracket front, port)
        | none => .error (.gatewayPort (String.ofList portText)) := by
  unfold parseGateway devicePort
  rw [split']
  dsimp only
  split
  · rfl
  · cases parsePort portText with
    | none => rfl
    | some port =>
        by_cases positive : 1 ≤ port
        · simp [positive, Option.filter, pure, Except.pure]
        · simp [positive, Option.filter, throw, throwThe, MonadExceptOf.throw]

theorem parseGateway_eq_ok {segment host : List Char} {port : Nat}
    (bar : '|' ∉ segment) :
    parseGateway segment = .ok (host, port) ↔
      ∃ front portText, segment = front ++ ':' :: portText ∧
        ':' ∉ portText ∧ unbracket front ≠ [] ∧ unbracket front = host ∧
        devicePort portText = some port := by
  have clear : ∀ front portText, segment = front ++ ':' :: portText →
      (unbracket front).contains '|' = false := by
    intro front portText whole
    refine Bool.eq_false_iff.mpr fun inside => bar ?_
    rw [whole]
    exact List.mem_append_left _
      (mem_of_mem_unbracket (List.contains_iff_mem.mp inside))
  constructor
  · intro ok
    cases split' : rsplitOnce ':' segment with
    | none => simp [parseGateway, split', throw, throwThe,
        MonadExceptOf.throw] at ok
    | some parts =>
        obtain ⟨front, portText⟩ := parts
        obtain ⟨whole, last⟩ := rsplitOnce_eq_some.mp split'
        rw [parseGateway_split split', clear front portText whole,
          Bool.or_false] at ok
        obtain ⟨named, ok⟩ := refuse_eq_ok.mp ok
        rw [List.isEmpty_iff] at named
        cases reads : devicePort portText with
        | none => simp [reads] at ok
        | some value =>
            rw [reads] at ok
            cases ok
            exact ⟨front, portText, whole, last, named, rfl, reads⟩
  · rintro ⟨front, portText, whole, last, named, rfl, reads⟩
    rw [parseGateway_split (rsplitOnce_eq_some.mpr ⟨whole, last⟩),
      clear front portText whole, Bool.or_false, if_neg, reads]
    rwa [List.isEmpty_iff]

def TokenParts.parsed (parts : TokenParts) (port : Nat) : ParsedEnrollToken :=
  { gatewayHost := String.ofList (unbracket parts.host)
    gatewayPort := port
    orgId := String.ofList parts.org
    tokenId := String.ofList parts.tokenId }

def TokenParts.enroll (parts : TokenParts) (sha256 : String → String)
    (raw : String) (port : Nat) : EnrollToken :=
  { gatewayHost := String.ofList (unbracket parts.host)
    gatewayPort := port
    orgId := String.ofList parts.org
    tokenId := String.ofList parts.tokenId
    secret := String.ofList parts.secret
    caFingerprint := hexBytes parts.hex
    sha256Hex := sha256 raw }

theorem validateTokenId_eq_ok {segment tokenId : List Char} :
    validateTokenId segment = .ok tokenId ↔
      ∃ secret, segment = tokenId ++ '.' :: secret ∧ '.' ∉ tokenId ∧
        tokenId ≠ [] ∧ secret ≠ [] := by
  unfold validateTokenId
  constructor
  · intro ok
    split at ok
    · cases ok
    · rename_i front secret split'
      obtain ⟨whole, first⟩ := splitOnce_eq_some.mp split'
      obtain ⟨both, ok⟩ := refuse_eq_ok.mp ok
      rw [not_or] at both
      cases ok
      exact ⟨secret, whole, first, both⟩
  · rintro ⟨secret, whole, first, both⟩
    rw [splitOnce_eq_some.mpr ⟨whole, first⟩]
    dsimp only
    rw [if_neg (not_or.mpr both)]

theorem validateFingerprint_eq_ok {segment : List Char} :
    validateFingerprint segment = .ok () ↔
      ∃ hex, segment = "sha256:".toList ++ hex ∧ hex.length = 64 ∧
        hex.all isHexDigit = true := by
  unfold validateFingerprint
  constructor
  · intro ok
    split at ok
    · cases ok
    · rename_i hex stripped
      obtain ⟨plain, -⟩ := refuse_eq_ok.mp ok
      rw [not_or, not_not, Bool.not_eq_true, Bool.not_eq_false'] at plain
      exact ⟨hex, stripPrefix_eq_some.mp stripped, plain⟩
  · rintro ⟨hex, whole, plain⟩
    rw [stripPrefix_eq_some.mpr whole]
    dsimp only
    rw [if_neg]
    rw [not_or, not_not, Bool.not_eq_true, Bool.not_eq_false']
    exact plain

theorem validateEnrollToken_eq_ok {raw : String}
    {shown : ParsedEnrollToken} :
    validateEnrollToken raw = .ok shown ↔
      ∃ parts port, LaidOut raw parts ∧ browserPort parts.port = some port ∧
        shown = parts.parsed port := by
  unfold validateEnrollToken
  constructor
  · intro ok
    obtain ⟨-, ok⟩ := refuse_eq_ok.mp ok
    obtain ⟨short, ok⟩ := refuse_eq_ok.mp ok
    obtain ⟨graphic, ok⟩ := refuse_eq_ok.mp ok
    rw [Bool.not_eq_true, Bool.not_eq_false'] at graphic
    rw [utf16Length_graphic graphic, Nat.not_lt] at short
    split at ok
    · rename_i version gateway org token fingerprint segments
      obtain ⟨version, ok⟩ := refuse_eq_ok.mp ok
      rw [not_not] at version
      obtain ⟨⟨host, port⟩, gatewayOk, ok⟩ := bind_eq_ok.mp ok
      obtain ⟨front, portText, rfl, last, named, rfl, reads⟩ :=
        validateGateway_eq_ok.mp gatewayOk
      dsimp only at ok
      obtain ⟨org, ok⟩ := refuse_eq_ok.mp ok
      obtain ⟨tokenId, tokenOk, ok⟩ := bind_eq_ok.mp ok
      obtain ⟨⟨⟩, fingerprintOk, ok⟩ := bind_eq_ok.mp ok
      cases ok
      obtain ⟨secret, rfl, first, ids, secrets⟩ :=
        validateTokenId_eq_ok.mp tokenOk
      obtain ⟨hex, rfl, plain⟩ := validateFingerprint_eq_ok.mp fingerprintOk
      subst version
      exact ⟨⟨front, portText, _, tokenId, secret, hex⟩, port,
        ⟨graphic, short, segments, named, last, org, first, ids, secrets,
          plain⟩, reads, rfl⟩
    · cases ok
  · rintro ⟨parts, port, laid, reads, rfl⟩
    have length := utf16Length_graphic laid.graphic
    have gateway := validateGateway_eq_ok.mpr
      ⟨parts.host, parts.port, rfl, laid.port, laid.host, rfl, reads⟩
    have token := validateTokenId_eq_ok.mpr
      ⟨parts.secret, rfl, laid.firstDot, laid.tokenId, laid.secret⟩
    have fingerprint := validateFingerprint_eq_ok.mpr ⟨parts.hex, rfl, laid.hex⟩
    have some' : raw.toList ≠ [] := by
      intro empty
      have segments := laid.segments
      rw [empty, List.splitOn_nil] at segments
      cases segments
    have positive := List.length_pos_iff.mpr some'
    have short := laid.short
    rw [if_neg (by omega), if_neg (by omega), if_neg (by simp [laid.graphic]),
      laid.segments]
    refine refuse_eq_ok.mpr ⟨by simp, bind_eq_ok.mpr ⟨_, gateway, ?_⟩⟩
    refine refuse_eq_ok.mpr ⟨laid.org, bind_eq_ok.mpr ⟨_, token, ?_⟩⟩
    exact bind_eq_ok.mpr ⟨_, fingerprint, rfl⟩

theorem parseToken_eq_ok {sha256 : String → String} {raw : String}
    {token' : EnrollToken} :
    parseToken sha256 raw = .ok token' ↔
      ∃ parts port, LaidOut raw parts ∧ devicePort parts.port = some port ∧
        token' = parts.enroll sha256 raw port := by
  unfold parseToken
  constructor
  · intro ok
    dsimp only at ok
    obtain ⟨short, inBounds⟩ := refuse_eq_ok.mp ok
    obtain ⟨graphic, readable⟩ := refuse_eq_ok.mp inBounds
    rw [Bool.not_eq_true, Bool.not_eq_false'] at graphic
    have bytes := utf8ByteSize_graphic graphic
    rw [String.ofList_toList] at bytes
    rw [bytes, Nat.not_lt] at short
    split at readable
    · rename_i version gateway org token fingerprint segments
      have bar : '|' ∉ gateway :=
        @not_mem_of_mem_splitOn '|' raw.toList _ (by simp [segments])
      obtain ⟨version, versioned⟩ := refuse_eq_ok.mp readable
      rw [not_not] at version
      obtain ⟨⟨host, port⟩, gatewayOk, reached⟩ :=
        bind_eq_ok.mp versioned
      obtain ⟨front, portText, rfl, last, named, rfl, reads⟩ :=
        (parseGateway_eq_ok bar).mp gatewayOk
      obtain ⟨org, owned⟩ := refuse_eq_ok.mp reached
      split at owned
      · rename_i tokenId secret split'
        obtain ⟨rfl, first⟩ := splitOnce_eq_some.mp split'
        obtain ⟨both, identified⟩ := refuse_eq_ok.mp owned
        rw [Bool.or_eq_true, not_or, List.isEmpty_iff, List.isEmpty_iff] at both
        split at identified
        · rename_i hex stripped
          obtain rfl := stripPrefix_eq_some.mp stripped
          obtain ⟨plain, pinned⟩ := refuse_eq_ok.mp identified
          rw [Bool.or_eq_true, not_or, decide_eq_true_eq, not_not,
            Bool.not_eq_true, Bool.not_eq_false'] at plain
          cases pinned
          subst version
          rw [List.isEmpty_iff] at org
          exact ⟨⟨front, portText, _, tokenId, secret, hex⟩, port,
            ⟨graphic, short, segments, named, last, org, first, both.1, both.2,
              plain⟩, reads, rfl⟩
        · cases identified
      · cases owned
    · cases readable
  · rintro ⟨parts, port, laid, reads, rfl⟩
    have bytes := utf8ByteSize_graphic laid.graphic
    rw [String.ofList_toList] at bytes
    have bar : '|' ∉ parts.host ++ ':' :: parts.port :=
      @not_mem_of_mem_splitOn '|' raw.toList _ (by simp [laid.segments])
    have gateway := (parseGateway_eq_ok bar).mpr
      ⟨parts.host, parts.port, rfl, laid.port, laid.host, rfl, reads⟩
    have short := laid.short
    refine refuse_eq_ok.mpr ⟨by omega, ?_⟩
    refine refuse_eq_ok.mpr ⟨by simp [laid.graphic], ?_⟩
    rw [laid.segments]
    refine refuse_eq_ok.mpr ⟨by simp, bind_eq_ok.mpr ⟨_, gateway, ?_⟩⟩
    refine refuse_eq_ok.mpr ⟨by simp [laid.org], ?_⟩
    rw [splitOnce_eq_some.mpr ⟨rfl, laid.firstDot⟩]
    refine refuse_eq_ok.mpr ⟨by simp [laid.tokenId, laid.secret], ?_⟩
    rw [stripPrefix_eq_some.mpr rfl]
    exact refuse_eq_ok.mpr ⟨by simp [laid.hex], rfl⟩

/-! ## Where both agree -/

/-- Both accept or both refuse a text, and what they report of it is the same. -/
structure Mirrors (sha256 : String → String) (raw : String) : Prop where
  accepts : (∃ shown, validateEnrollToken raw = .ok shown) ↔
    ∃ token, parseToken sha256 raw = .ok token
  same : ∀ shown token, validateEnrollToken raw = .ok shown →
    parseToken sha256 raw = .ok token →
      shown.gatewayHost = token.gatewayHost ∧
      shown.gatewayPort = token.gatewayPort ∧
      shown.orgId = token.orgId ∧ shown.tokenId = token.tokenId

/-- A number in range behind the gateway is spelled in decimal digits, unless
another part is malformed. -/
def PlainPort (raw : String) : Prop :=
  ∀ parts, LaidOut raw parts → ∀ value port,
    JsNumber.number parts.port = some (false, value) →
      value.whole = some port → 1 ≤ port ∧ port ≤ 65535 →
        ∃ digits, Digits parts.port digits

theorem mirrors_iff (sha256 : String → String) (raw : String) :
    Mirrors sha256 raw ↔ PlainPort raw := by
  constructor
  · intro mirrors parts laid value port number whole range
    have reads := browserPort_eq_some.mpr ⟨value, number, whole, range⟩
    obtain ⟨token, parses⟩ := mirrors.accepts.mp
      ⟨_, validateEnrollToken_eq_ok.mpr ⟨parts, port, laid, reads, rfl⟩⟩
    obtain ⟨others, value', laid', device, -⟩ := parseToken_eq_ok.mp parses
    obtain rfl := laid.unique laid'
    obtain ⟨digits, plain, -⟩ := devicePort_eq_some.mp device
    exact ⟨digits, plain⟩
  · intro plain
    constructor
    · constructor
      · rintro ⟨shown, accepted⟩
        obtain ⟨parts, port, laid, reads, -⟩ :=
          validateEnrollToken_eq_ok.mp accepted
        obtain ⟨value, number, whole, range⟩ := browserPort_eq_some.mp reads
        obtain ⟨digits, spelled⟩ := plain parts laid value port number whole range
        have device := devicePort_eq_some.mpr
          ⟨digits, spelled, (browserPort_digits spelled).mp reads⟩
        exact ⟨_, parseToken_eq_ok.mpr ⟨parts, port, laid, device, rfl⟩⟩
      · rintro ⟨token, parses⟩
        obtain ⟨parts, port, laid, device, -⟩ := parseToken_eq_ok.mp parses
        have reads := browserPort_of_devicePort device
        exact ⟨_, validateEnrollToken_eq_ok.mpr
          ⟨parts, port, laid, reads, rfl⟩⟩
    · intro shown token accepted parses
      obtain ⟨parts, port, laid, reads, rfl⟩ :=
        validateEnrollToken_eq_ok.mp accepted
      obtain ⟨others, value, laid', device, rfl⟩ := parseToken_eq_ok.mp parses
      obtain rfl := laid.unique laid'
      have same := reads.symm.trans (browserPort_of_devicePort device)
      cases same
      exact ⟨rfl, rfl, rfl, rfl⟩

/-- A port in hexadecimal is one to the browser only. -/
def hexadecimalToken : String :=
  "QC1|gw.example:0x1F90|org|id.secret|sha256:" ++
    "aaaaaaaaaaaaaaaaaaaaaaaaaaaaaaaaaaaaaaaaaaaaaaaaaaaaaaaaaaaaaaaa"

theorem hexadecimal_port :
    ¬ ∀ sha256 raw, Mirrors sha256 raw := by
  intro mirrors
  have accepted : validateEnrollToken hexadecimalToken = .ok
      { gatewayHost := "gw.example", gatewayPort := 8080, orgId := "org",
        tokenId := "id" } := by
    decide +kernel
  obtain ⟨token, parses⟩ :=
    (mirrors (fun text => text) hexadecimalToken).accepts.mp ⟨_, accepted⟩
  have refused : parseToken (fun text => text) hexadecimalToken =
      .error (.gatewayPort "0x1F90") := by
    decide +kernel
  rw [refused] at parses
  cases parses

end QuartzFire.Agent
