import QuartzFire.Foundation.Text

/-!
# The model of SSL inspection

What `service quartzfire ssl-inspection` configures, and what its owner
refuses at a commit.
-/

namespace QuartzFire.SslInspection

def defaultActions : List String := ["inspect", "splice"]

def upstreamInvalidChoices : List String := ["block", "allow"]

def failModes : List String := ["closed", "open"]

/-- The ICAP service that filters what Squid decrypts. -/
structure ContentFilter where
  icapHost : String := "127.0.0.1"
  icapPort : Nat := 1344
  reqmodService : String := "request"
  respmodService : String := "response"
  failMode : String := "closed"
  deriving DecidableEq

def ContentFilter.failClosed (filter : ContentFilter) : Bool :=
  filter.failMode ≠ "open"

/-- Inspection of the traffic of one firewall rule. -/
structure Policy where
  rule : Nat
  ruleset : String := "forward"
  action : String := "inspect"
  enabled : Bool := true
  deriving DecidableEq

structure Model where
  enabled : Bool := false
  interceptPort : Nat := 3129
  policies : List Policy := []
  defaultAction : String := "inspect"
  noInspect : List String := []
  defaultExclusions : Bool := true
  upstreamInvalid : String := "block"
  contentFilter : Option ContentFilter := none
  caDownloadInterfaces : List String := []
  deriving DecidableEq

def Model.caDownloadScope (model : Model) : List String :=
  model.caDownloadInterfaces

/-! ## Validation -/

def ifaceOk (name : String) : Bool :=
  name ≠ "" && name.utf8ByteSize ≤ 15 && name.toList.all fun char =>
    char.isAlphanum || char ∈ ['.', '-', '_']

def labelOk (label : List Char) : Bool :=
  !label.isEmpty && (String.ofList label).utf8ByteSize ≤ 63 &&
    (label.all fun char => char.isAlphanum || char = '-') &&
    label.head? ≠ some '-' && label.getLast? ≠ some '-'

/-- `example.com`, `.example.com` or `*.example.com` -/
def domainPatternOk (pat : String) : Bool :=
  let core := ((stripPrefix ['*', '.'] pat.toList).orElse fun _ =>
    stripPrefix ['.'] pat.toList).getD pat.toList
  !core.isEmpty && (String.ofList core).utf8ByteSize ≤ 253 &&
    (core.splitOn '.').all labelOk

def policyProblems (policy : Policy) : List String :=
  (if policy.action ∈ defaultActions then [] else
    ["policy " ++ toString policy.rule ++
      ": action must be inspect or splice (got \"" ++ policy.action ++
      "\")"]) ++
  (if policy.ruleset = "forward" then [] else
    ["policy " ++ toString policy.rule ++
      ": only the forward ruleset can carry SSL inspection (got \"" ++
      policy.ruleset ++ "\")"])

def filterProblems (icapCapable : Option Bool) (filter : ContentFilter) :
    List String :=
  (if filter.failMode ∈ failModes then [] else
    ["content-filter fail-mode must be closed or open (got \"" ++
      filter.failMode ++ "\")"]) ++
  (if trim filter.icapHost.toList = [] then
    ["content-filter icap-host must not be empty"] else []) ++
  (if filter.icapPort = 0 then
    ["content-filter icap-port must be 1-65535"] else []) ++
  (if icapCapable = some false then
    ["a content filter (ICAP) is configured but the installed Squid was " ++
      "built WITHOUT --enable-icap-client — install squid-openssl."]
    else [])

/-- Human-readable problems; the capabilities are those of the installed
Squid, if it was asked. -/
def validate (model : Model) (bumpCapable icapCapable : Option Bool) :
    List String :=
  if !model.enabled then [] else
  (if model.interceptPort < 1024 then
    ["intercept-port must be a non-privileged port (1024-65535); got " ++
      toString model.interceptPort] else []) ++
  (if model.defaultAction ∈ defaultActions then [] else
    ["default-action must be inspect or splice (got \"" ++
      model.defaultAction ++ "\")"]) ++
  (if model.upstreamInvalid ∈ upstreamInvalidChoices then [] else
    ["upstream-invalid must be block or allow (got \"" ++
      model.upstreamInvalid ++ "\")"]) ++
  (if model.policies.any Policy.enabled then [] else
    ["at least one inspection policy must be enabled — attach SSL " ++
      "inspection to a firewall rule (nothing would be intercepted " ++
      "otherwise)"]) ++
  model.policies.flatMap policyProblems ++
  (model.caDownloadInterfaces.filter fun name => !ifaceOk name).map
    (fun name => "\"" ++ name ++ "\" is not a valid interface name") ++
  (model.noInspect.filter fun pat => !domainPatternOk pat).map
    (fun pat => "do-not-inspect entry \"" ++ pat ++
      "\" is not a valid domain pattern (use example.com, .example.com, " ++
      "or *.example.com)") ++
  (if bumpCapable = some false then
    ["the installed Squid was built WITHOUT OpenSSL ssl_bump support " ++
      "(squid -v shows no --with-openssl/--enable-ssl-crtd) — install the " ++
      "squid-openssl package. Refusing to enable inspection that cannot work."]
    else []) ++
  match model.contentFilter with
  | some filter => filterProblems icapCapable filter
  | none => []

end QuartzFire.SslInspection
