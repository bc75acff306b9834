import QuartzFire.Foundation.Text

/-!
# Enrollment tokens

`QC1|<gateway>|<org>|<token_id>.<secret>|sha256:<fingerprint>`, parsed strictly.
-/

namespace QuartzFire.Agent

def isAsciiGraphic (char : Char) : Bool :=
  0x21 ≤ char.val && char.val ≤ 0x7E

def isHexDigit (char : Char) : Bool :=
  char.isDigit || ('a' ≤ char && char ≤ 'f') || ('A' ≤ char && char ≤ 'F')

def hexValue (char : Char) : Nat :=
  if char.isDigit then char.toNat - '0'.toNat
  else if 'a' ≤ char then char.toNat - 'a'.toNat + 10
  else char.toNat - 'A'.toNat + 10

/-- The bytes spelled by pairs of hexadecimal digits. -/
def hexBytes : List Char → List Nat
  | high :: low :: rest => (hexValue high * 16 + hexValue low) :: hexBytes rest
  | _ => []

/-! ## Tokens -/

structure EnrollToken where
  gatewayHost : String
  gatewayPort : Nat
  orgId : String
  tokenId : String
  secret : String
  caFingerprint : List Nat
  /-- SHA-256 of the whole text, by which a replay is known. -/
  sha256Hex : String
  deriving DecidableEq

def EnrollToken.gateway (token : EnrollToken) : String :=
  token.gatewayHost ++ ":" ++ toString token.gatewayPort

inductive TokenError where
  | tooLong (bytes : Nat)
  | badCharacters
  | segmentCount (found : Nat)
  | version (found : String)
  | gatewayShape (found : String)
  | gatewayPort (found : String)
  | orgEmpty
  | tokenShape
  | fingerprintScheme
  | fingerprintHex (found : Nat)
  deriving DecidableEq

/-- An address literal without its brackets. -/
def unbracket (host : List Char) : List Char :=
  match host with
  | '[' :: rest =>
      if rest.getLast? = some ']' then rest.dropLast else host
  | _ => host

def parseGateway (segment : List Char) :
    Except TokenError (List Char × Nat) := do
  let some (hostRaw, portRaw) := rsplitOnce ':' segment
    | throw (.gatewayShape (String.ofList segment))
  let host := unbracket hostRaw
  if host.isEmpty || host.contains '|' then
    throw (.gatewayShape (String.ofList segment))
  match parsePort portRaw with
  | some port =>
      if 1 ≤ port then return (host, port)
      else throw (.gatewayPort (String.ofList portRaw))
  | none => throw (.gatewayPort (String.ofList portRaw))

/-- `sha256` is the digest of a text in hexadecimal. -/
def parseToken (sha256 : String → String) (raw : String) :
    Except TokenError EnrollToken := do
  if raw.utf8ByteSize > 1024 then throw (.tooLong raw.utf8ByteSize)
  if !raw.toList.all isAsciiGraphic then throw .badCharacters
  match raw.toList.splitOn '|' with
  | [version, gateway, org, token, fingerprint] =>
      if version ≠ "QC1".toList then
        throw (.version (String.ofList version))
      let (host, port) ← parseGateway gateway
      if org.isEmpty then throw .orgEmpty
      let some (tokenId, secret) := splitOnce '.' token
        | throw .tokenShape
      if tokenId.isEmpty || secret.isEmpty then throw .tokenShape
      let some hex := stripPrefix "sha256:".toList fingerprint
        | throw .fingerprintScheme
      if hex.length ≠ 64 || !hex.all isHexDigit then
        throw (.fingerprintHex hex.length)
      return {
        gatewayHost := String.ofList host
        gatewayPort := port
        orgId := String.ofList org
        tokenId := String.ofList tokenId
        secret := String.ofList secret
        caFingerprint := hexBytes hex
        sha256Hex := sha256 raw }
  | segments => throw (.segmentCount segments.length)

end QuartzFire.Agent
