import QuartzFire.Agent.BrowserToken
import QuartzFire.ContentFiltering.Model
import QuartzFire.Foundation.Words

/-!
# The gateway from the token to the channel

A token names the gateway as `host:port`, with an IPv6 literal in brackets.  The
agent stores the two joined without brackets, splits the stored text when it
dials, and joins them again into an address and a URL.
-/

namespace QuartzFire.Agent

open ContentFiltering (ipv6Ok groupCount splitDoubleColon)

/-! ## What the agent makes of it -/

def splitGateway (gateway : String) : Except String (String × Nat) :=
  match rsplitOnce ':' gateway.toList with
  | none => .error ("gateway '" ++ gateway ++ "' is not host:port")
  | some (hostRaw, port) =>
      match parsePort port with
      | none => .error ("bad port in '" ++ gateway ++ "'")
      | some port => .ok (String.ofList (unbracket hostRaw), port)

/-- The address that `grpc_channel` resolves. -/
def channelAddress (host : String) (port : Nat) : String :=
  host ++ ":" ++ toString port

/-- The URL that `grpc_channel` gives to its endpoint. -/
def channelUrl (host : String) (port : Nat) : String :=
  "https://" ++ channelAddress host port

/-! ## What it is to denote a host and a port -/

/-- A character of a name in a URL: one that needs no escape. -/
def isNameChar (char : Char) : Bool :=
  char.isAlphanum || "-._~!$&'()*+,;=".toList.contains char

/-- A text that denotes a host and a port, a literal in brackets. -/
inductive Endpoint (host : List Char) (port : Nat) : List Char → Prop where
  | name {digits : List Char} :
      host ≠ [] → host.all isNameChar = true →
      digits ≠ [] → digits.all Char.isDigit = true →
      Nat.ofDigitChars 10 digits 0 = port →
      Endpoint host port (host ++ ':' :: digits)
  | literal {digits : List Char} :
      ipv6Ok host = true →
      digits ≠ [] → digits.all Char.isDigit = true →
      Nat.ofDigitChars 10 digits 0 = port →
      Endpoint host port (('[' :: host ++ [']']) ++ ':' :: digits)

/-- A URL with nothing but a host and a port. -/
def UrlOf (host : String) (port : Nat) (url : String) : Prop :=
  ∃ authority, Endpoint host.toList port authority ∧
    url.toList = "https://".toList ++ authority

/-- The resolver takes what follows the last colon as the port, and a literal
out of its brackets. -/
def resolverTarget (address : String) : Option (String × Nat) :=
  match rsplitOnce ':' address.toList with
  | none => none
  | some (host, port) => (parsePort port).map fun port =>
      (String.ofList (if ipv6Ok (unbracket host) then unbracket host else host),
        port)

/-- The documented form of a token. -/
def Documented (raw : String) : Prop :=
  ∃ parts, LaidOut raw parts ∧ ∃ host port,
    Endpoint host port (parts.host ++ ':' :: parts.port) ∧
      1 ≤ port ∧ port ≤ 65535

/-! ## Names and literals -/

theorem splitDoubleColon_of_absent {text : List Char} (absent : ':' ∉ text) :
    splitDoubleColon text = none := by
  induction text with
  | nil => rfl
  | cons char rest ih =>
      rw [List.mem_cons, not_or] at absent
      unfold splitDoubleColon
      split
      · rename_i same
        cases same
        exact absurd rfl absent.1
      · rename_i same
        cases same
        rw [ih absent.2]
        rfl
      · rfl

theorem splitOn_of_absent {text : List Char} (absent : ':' ∉ text) :
    text.splitOn ':' = [text] := by
  apply List.splitOnP_eq_singleton
  intro char member
  rw [beq_eq_false_iff_ne]
  rintro rfl
  exact absent member

theorem groupCount_of_absent {text : List Char} {count : Nat}
    (absent : ':' ∉ text) (counted : groupCount true text = some count) :
    count ≤ 2 := by
  unfold groupCount at counted
  rw [splitOn_of_absent absent] at counted
  dsimp only at counted
  split at counted
  · cases counted
    omega
  · split at counted
    · cases counted
      simp
    · split at counted
      · cases counted
        simp
      · cases counted

theorem colon_of_ipv6Ok {text : List Char} (ok : ipv6Ok text = true) :
    ':' ∈ text := by
  by_contra absent
  unfold ipv6Ok at ok
  rw [splitDoubleColon_of_absent absent] at ok
  have counted := of_decide_eq_true ok
  have few := groupCount_of_absent absent counted
  omega

theorem colon_absent_of_name {host : List Char}
    (named : host.all isNameChar = true) : ':' ∉ host := by
  intro member
  have plain := List.all_eq_true.mp named ':' member
  exact absurd plain (by decide)

theorem bracket_absent_of_name {host : List Char}
    (named : host.all isNameChar = true) : '[' ∉ host := by
  intro member
  have plain := List.all_eq_true.mp named '[' member
  exact absurd plain (by decide)

theorem unbracket_of_absent {host : List Char} (absent : '[' ∉ host) :
    unbracket host = host := by
  unfold unbracket
  split
  · exact absurd List.mem_cons_self absent
  · rfl

theorem unbracket_brackets (host : List Char) :
    unbracket ('[' :: host ++ [']']) = host := by
  simp [unbracket]

theorem ipv6Ok_of_name {host : List Char} (named : host.all isNameChar = true) :
    ipv6Ok host = false := by
  rw [Bool.eq_false_iff]
  intro literal
  exact colon_absent_of_name named (colon_of_ipv6Ok literal)

/-! ## The last colon -/

theorem colon_absent_of_digits {digits : List Char}
    (plain : digits.all Char.isDigit = true) : ':' ∉ digits := by
  intro member
  have digit := List.all_eq_true.mp plain ':' member
  exact absurd digit (by decide)

/-- Behind a host as it stands, only a name makes an endpoint of it. -/
theorem name_of_endpoint {host digits : List Char} {port : Nat}
    (plain : ':' ∉ digits)
    (endpoint : Endpoint host port (host ++ ':' :: digits)) :
    host.all isNameChar = true := by
  generalize whole : host ++ ':' :: digits = text at endpoint
  cases endpoint with
  | name _ named _ _ _ => exact named
  | literal _ _ digit _ =>
      obtain ⟨same, -⟩ := rsplitOnce_unique whole plain
        (colon_absent_of_digits digit)
      have lengths := congrArg List.length same
      rw [List.length_append, List.length_cons, List.length_singleton]
        at lengths
      omega

theorem parsePort_toDigits {port : Nat} (fits : port ≤ 65535) :
    parsePort (Nat.toDigits 10 port) = some port := by
  apply parseUnsigned_toDigits
  omega

theorem toList_channelAddress (host : List Char) (port : Nat) :
    (channelAddress (String.ofList host) port).toList =
      host ++ ':' :: Nat.toDigits 10 port := by
  unfold channelAddress
  rw [String.toList_append, String.toList_append, String.toList_ofList,
    toList_toString]
  simp

theorem rsplitOnce_channelAddress (host : List Char) (port : Nat) :
    rsplitOnce ':' (channelAddress (String.ofList host) port).toList =
      some (host, Nat.toDigits 10 port) := by
  rw [toList_channelAddress]
  exact rsplitOnce_eq_some.mpr
    ⟨rfl, colon_absent_of_digits (all_isDigit_digits port)⟩

/-! ## Names reach the channel as they are -/

section Names

variable {host : List Char} {port : Nat}

theorem splitGateway_of_name (named : host.all isNameChar = true)
    (fits : port ≤ 65535) :
    splitGateway (channelAddress (String.ofList host) port) =
      .ok (String.ofList host, port) := by
  unfold splitGateway
  rw [rsplitOnce_channelAddress]
  dsimp only
  rw [parsePort_toDigits fits,
    unbracket_of_absent (bracket_absent_of_name named)]

theorem resolverTarget_of_name (named : host.all isNameChar = true)
    (fits : port ≤ 65535) :
    resolverTarget (channelAddress (String.ofList host) port) =
      some (String.ofList host, port) := by
  unfold resolverTarget
  rw [rsplitOnce_channelAddress]
  dsimp only
  rw [parsePort_toDigits fits,
    unbracket_of_absent (bracket_absent_of_name named), ipv6Ok_of_name named]
  rfl

theorem urlOf_channelUrl (named : host.all isNameChar = true)
    (some' : host ≠ []) :
    UrlOf (String.ofList host) port
      (channelUrl (String.ofList host) port) := by
  refine ⟨host ++ ':' :: Nat.toDigits 10 port, ?_, ?_⟩
  · rw [String.toList_ofList]
    exact .name some' named Nat.toDigits_ne_nil (all_isDigit_digits port)
      Nat.ofDigitChars_ten_toDigits
  · unfold channelUrl
    rw [String.toList_append, toList_channelAddress]

theorem name_of_urlOf
    (denotes : UrlOf (String.ofList host) port
      (channelUrl (String.ofList host) port)) :
    host.all isNameChar = true := by
  obtain ⟨authority, endpoint, same⟩ := denotes
  unfold channelUrl at same
  rw [String.toList_append, toList_channelAddress] at same
  obtain rfl := List.append_cancel_left same
  rw [String.toList_ofList] at endpoint
  exact name_of_endpoint (colon_absent_of_digits (all_isDigit_digits port)) endpoint

end Names

/-! ## Tokens -/

/-- A token is accepted if and only if it has the documented form, and then the
stored gateway, the address and the URL all denote its host and its port. -/
structure Reaches (sha256 : String → String) (raw : String) : Prop where
  grammar : (∃ token, parseToken sha256 raw = .ok token) ↔ Documented raw
  splits : ∀ token, parseToken sha256 raw = .ok token →
    splitGateway token.gateway = .ok (token.gatewayHost, token.gatewayPort)
  address : ∀ token, parseToken sha256 raw = .ok token →
    resolverTarget (channelAddress token.gatewayHost token.gatewayPort) =
      some (token.gatewayHost, token.gatewayPort)
  url : ∀ token, parseToken sha256 raw = .ok token →
    UrlOf token.gatewayHost token.gatewayPort
      (channelUrl token.gatewayHost token.gatewayPort)

/-- Where a token is well formed up to its host, and its port is a number in
range, the host is a name and the port has no plus sign. -/
def NamedGateway (raw : String) : Prop :=
  ∀ parts, LaidOut raw parts → ∀ digits, Digits parts.port digits →
    1 ≤ Nat.ofDigitChars 10 digits 0 → Nat.ofDigitChars 10 digits 0 ≤ 65535 →
      parts.host.all isNameChar = true ∧ parts.port = digits

theorem LaidOut.accepts_of_documented {raw : String} {parts : TokenParts}
    {host : List Char} {port : Nat} (laid : LaidOut raw parts)
    (endpoint : Endpoint host port (parts.host ++ ':' :: parts.port)) :
    Digits parts.port parts.port ∧ Nat.ofDigitChars 10 parts.port 0 = port := by
  generalize whole : parts.host ++ ':' :: parts.port = text at endpoint
  cases endpoint with
  | name _ _ some' digit value =>
      obtain ⟨-, same⟩ := rsplitOnce_unique whole laid.port
        (colon_absent_of_digits digit)
      rw [same]
      exact ⟨⟨.inl rfl, some', digit⟩, value⟩
  | literal _ some' digit value =>
      obtain ⟨-, same⟩ := rsplitOnce_unique whole laid.port
        (colon_absent_of_digits digit)
      rw [same]
      exact ⟨⟨.inl rfl, some', digit⟩, value⟩

theorem accepts_of_documented (sha256 : String → String) {raw : String}
    (documented : Documented raw) :
    ∃ token, parseToken sha256 raw = .ok token := by
  obtain ⟨parts, laid, host, port, endpoint, range⟩ := documented
  obtain ⟨plain, value⟩ := laid.accepts_of_documented endpoint
  have reads := devicePort_eq_some.mpr ⟨_, plain, value, range⟩
  exact ⟨_, parseToken_eq_ok.mpr ⟨parts, port, laid, reads, rfl⟩⟩

/-- A documented gateway that is not a literal. -/
theorem LaidOut.named {raw : String} {parts : TokenParts} {host : List Char}
    {port : Nat} (laid : LaidOut raw parts)
    (endpoint : Endpoint host port (parts.host ++ ':' :: parts.port))
    (named : (unbracket parts.host).all isNameChar = true) :
    parts.host.all isNameChar = true := by
  generalize whole : parts.host ++ ':' :: parts.port = text at endpoint
  cases endpoint with
  | name _ plain _ digit _ =>
      obtain ⟨same, -⟩ := rsplitOnce_unique whole laid.port
        (colon_absent_of_digits digit)
      rw [same]
      exact plain
  | literal literal _ digit _ =>
      obtain ⟨same, -⟩ := rsplitOnce_unique whole laid.port
        (colon_absent_of_digits digit)
      rw [same, unbracket_brackets] at named
      exact absurd (colon_of_ipv6Ok literal) (colon_absent_of_name named)

theorem reaches_iff (sha256 : String → String) (raw : String) :
    Reaches sha256 raw ↔ NamedGateway raw := by
  constructor
  · intro reaches parts laid digits plain positive fits
    have reads := devicePort_eq_some.mpr ⟨digits, plain, rfl, positive, fits⟩
    have parses : parseToken sha256 raw = .ok _ :=
      parseToken_eq_ok.mpr ⟨parts, _, laid, reads, rfl⟩
    obtain ⟨parts', laid', host, port, endpoint, -⟩ :=
      reaches.grammar.mp ⟨_, parses⟩
    obtain rfl := laid.unique laid'
    have named := name_of_urlOf (reaches.url _ parses)
    refine ⟨laid.named endpoint named, ?_⟩
    obtain ⟨unsigned, -⟩ := laid.accepts_of_documented endpoint
    rcases plain.1 with same | signed
    · exact same
    · have head := head_digits unsigned.2.2 (by decide : '+'.isDigit = false)
      exact absurd signed (head digits)
  · intro named
    -- What the parser reads, spelled as the condition wants it.
    have read : ∀ token, parseToken sha256 raw = .ok token →
        ∃ parts, LaidOut raw parts ∧ parts.host.all isNameChar = true ∧
          Digits parts.port parts.port ∧
          Nat.ofDigitChars 10 parts.port 0 = token.gatewayPort ∧
          1 ≤ token.gatewayPort ∧ token.gatewayPort ≤ 65535 ∧
          parts.host ≠ [] ∧ token.gatewayHost = String.ofList parts.host := by
      intro token parses
      obtain ⟨parts, port, laid, reads, rfl⟩ := parseToken_eq_ok.mp parses
      obtain ⟨digits, plain, rfl, positive, fits⟩ := devicePort_eq_some.mp reads
      obtain ⟨host, rfl⟩ := named parts laid digits plain positive fits
      have whole := unbracket_of_absent (bracket_absent_of_name host)
      have some' := laid.host
      rw [whole] at some'
      refine ⟨parts, laid, host, plain, rfl, positive, fits, some', ?_⟩
      unfold TokenParts.enroll
      rw [whole]
    constructor
    · refine ⟨?_, accepts_of_documented sha256⟩
      rintro ⟨token, parses⟩
      obtain ⟨parts, laid, host, plain, value, positive, fits, some', -⟩ :=
        read token parses
      exact ⟨parts, laid, parts.host, token.gatewayPort,
        .name some' host plain.2.1 plain.2.2 value, positive, fits⟩
    · intro token parses
      obtain ⟨parts, -, host, -, -, -, fits, -, same⟩ := read token parses
      unfold EnrollToken.gateway
      rw [same]
      exact splitGateway_of_name host fits
    · intro token parses
      obtain ⟨parts, -, host, -, -, -, fits, -, same⟩ := read token parses
      rw [same]
      exact resolverTarget_of_name host fits
    · intro token parses
      obtain ⟨parts, -, host, -, -, -, -, some', same⟩ := read token parses
      rw [same]
      exact urlOf_channelUrl host some'

/-- The gateway of an accepted token may be a literal. -/
def literalToken : String :=
  "QC1|[2001:db8::1]:443|org|id.sec|sha256:" ++
    "aa00000000000000000000000000000000000000000000000000000000000bb1"

/-- The URL of a literal has lost its brackets. -/
theorem literal_unreachable : ¬ ∀ sha256 raw, Reaches sha256 raw := by
  intro reaches
  have reached := reaches (fun text => text) literalToken
  have parses : (parseToken (fun text => text) literalToken).map
      (fun token => (token.gatewayHost, token.gatewayPort)) =
        .ok ("2001:db8::1", 443) := by
    decide +kernel
  cases parsed : parseToken (fun text => text) literalToken with
  | error _ => simp [parsed, Except.map] at parses
  | ok token =>
      rw [parsed] at parses
      obtain ⟨host, port⟩ := Prod.mk.inj (Except.ok.inj parses)
      have url := reached.url token parsed
      rw [host, port] at url
      have named := @name_of_urlOf "2001:db8::1".toList 443
        (by rwa [String.ofList_toList])
      exact absurd named (by decide)

end QuartzFire.Agent
