import QuartzFire.Firewall.Objects
import QuartzFire.Firewall.RuleServices

/-!
# Geolocation actions and the inspection service

The lists of geolocation actions and the settings of SSL inspection as the
console reads them, and the commands of a save, which are those of the leaves
that differ.
-/

namespace QuartzFire.Firewall

open ConfigTree

/-! ## Geolocation actions -/

inductive GeoMode where
  | blockListed
  | allowListed
  deriving DecidableEq, Repr

def GeoMode.text : GeoMode → String
  | .blockListed => "block-listed"
  | .allowListed => "allow-listed"

inductive GeoUnknown where
  | allow
  | block
  deriving DecidableEq, Repr

def GeoUnknown.text : GeoUnknown → String
  | .allow => "allow"
  | .block => "block"

structure GeoAction where
  name : String
  description : Option String
  /-- Missing on actions of the command line until it is set. -/
  mode : Option GeoMode
  countries : List String
  unknownIp : GeoUnknown
  log : Bool
  deriving DecidableEq, Repr

def asMode (text : Option String) : Option GeoMode :=
  if text = some "block-listed" then some .blockListed
  else if text = some "allow-listed" then some .allowListed
  else none

def asUnknown (text : Option String) : GeoUnknown :=
  if text = some "block" then .block else .allow

/-- `toUpperCase` of the browser, which changes nothing the second time. -/
class UpperCase where
  upper : String → String
  upper_upper : ∀ text, upper (upper text) = upper text

export UpperCase (upper upper_upper)

variable [UpperCase]

def parseGeoAction (name : String) (cfg : Cfg) : GeoAction :=
  { name := name
    description := childStr cfg "description"
    mode := asMode (childStr cfg "mode")
    countries := (childList cfg "country").map upper
    unknownIp := asUnknown (childStr cfg "unknown-ip")
    log := has cfg "log" }

def geoActions : Path := ["service", "geolocation", "action"]

def actionBase (name : String) : Path := geoActions ++ [name]

/-- The actions `fetchGeolocation` reads, in the order of their names. -/
def fetchGeoActions (locale : Locale) (root : Cfg) : List GeoAction :=
  let service := childNode (childNode root "service") "geolocation"
  locale.sortBy GeoAction.name
    ((childNode service "action").entries.map fun (name, cfg) =>
      parseGeoAction name cfg)

/-- The desired action, and the name of the one being edited. -/
structure GeoActionUpdate where
  name : String
  description : Option String
  mode : GeoMode
  countries : List String
  unknownIp : GeoUnknown
  log : Bool
  originalName : Option String

/-- The name of the node that a rename leaves. -/
def GeoActionUpdate.moved (update : GeoActionUpdate) : Option String :=
  update.originalName.filter (· ≠ update.name)

def GeoActionUpdate.newCountries (update : GeoActionUpdate) : List String :=
  distinct (update.countries.map fun country => upper (trim country))

/-- Policies stay attached to an action that is renamed. -/
def repoint (policies : List GeoPolicy) (old new : String) :
    List VyosCommand :=
  (policies.filter fun policy => policy.action = old).map fun policy =>
    .set (policyBase policy.id ++ ["action", new])

def diffGeoAction (existing : List GeoAction) (policies : List GeoPolicy)
    (update : GeoActionUpdate) : List VyosCommand :=
  let live := if update.moved.isSome then none
    else existing.find? fun action => action.name = update.name
  let base := actionBase update.name
  (update.moved.toList.flatMap fun old =>
    .delete (actionBase old) :: repoint policies old update.name) ++
  leafDiff (base ++ ["description"]) (live.bind GeoAction.description)
    (update.description.bind trimmed) ++
  leafDiff (base ++ ["mode"])
    ((live.bind GeoAction.mode).map GeoMode.text) (some update.mode.text) ++
  leafDiff (base ++ ["unknown-ip"])
    (live.map fun live => live.unknownIp.text)
    (if update.unknownIp = .block then some "block" else none) ++
  diffLeaf (base ++ ["country"]) ((live.map GeoAction.countries).getD [])
    update.newCountries ++
  flagDiff (base ++ ["log"]) ((live.map GeoAction.log).getD false) update.log

/-! ## SSL inspection -/

/-- The default action has the names of a policy's. -/
abbrev SslDefaultAction := SslPolicyAction

inductive UpstreamInvalid where
  | block
  | allow
  deriving DecidableEq, Repr

def UpstreamInvalid.text : UpstreamInvalid → String
  | .block => "block"
  | .allow => "allow"

inductive FailMode where
  | closed
  | open'
  deriving DecidableEq, Repr

def FailMode.text : FailMode → String
  | .closed => "closed"
  | .open' => "open"

structure SslContentFilter where
  icapHost : String
  icapPort : Nat
  reqmodService : String
  respmodService : String
  failMode : FailMode
  deriving DecidableEq, Repr

structure SslInspectionConfig where
  enabled : Bool
  interceptPort : Nat
  policies : List SslPolicy
  defaultAction : SslDefaultAction
  noInspect : List String
  /-- The shipped exclusions apply. -/
  defaultExclusions : Bool
  upstreamInvalid : UpstreamInvalid
  contentFilter : Option SslContentFilter
  caDownloadInterfaces : List String
  deriving DecidableEq, Repr

def sslNode : Path := ["service", "quartzfire", "ssl-inspection"]

def asSslAction (text : Option String) : SslPolicyAction :=
  if text = some "splice" then .splice else .inspect

def asUpstreamInvalid (text : Option String) : UpstreamInvalid :=
  if text = some "allow" then .allow else .block

def asFailMode (text : Option String) : FailMode :=
  if text = some "open" then .open' else .closed

/-- `Number(text) || fallback` -/
def numberOr (fallback : Nat) (text : Option String) : Nat :=
  if leafNumber text = 0 then fallback else leafNumber text

def parseContentFilter (cfg : Cfg) : SslContentFilter :=
  { icapHost := (childStr cfg "icap-host").getD "127.0.0.1"
    icapPort := numberOr 1344 (childStr cfg "icap-port")
    reqmodService := (childStr cfg "reqmod-service").getD "request"
    respmodService := (childStr cfg "respmod-service").getD "response"
    failMode := asFailMode (childStr cfg "fail-mode") }

def fetchSslInspection (root : Cfg) : SslInspectionConfig :=
  let cfg := childNode (childNode (childNode root "service") "quartzfire")
    "ssl-inspection"
  { enabled := has cfg "enable"
    interceptPort := numberOr 3129 (childStr cfg "intercept-port")
    policies := fetchSslPolicies root
    defaultAction := asSslAction (childStr cfg "default-action")
    noInspect := childList cfg "no-inspect"
    defaultExclusions := !has cfg "disable-default-exclusions"
    upstreamInvalid := asUpstreamInvalid (childStr cfg "upstream-invalid")
    contentFilter := (childCfg cfg "content-filter").map parseContentFilter
    caDownloadInterfaces := childList (childNode cfg "ca-download") "interface" }

/-- Sets of values, which come without repetitions. -/
def multiDiff (path : Path) (live desired : List String) : List VyosCommand :=
  diffLeaf path (distinct live) (distinct desired)

def contentFilterDiff (live desired : Option SslContentFilter) :
    List VyosCommand :=
  match desired with
  | none => if live.isSome then [.delete (sslNode ++ ["content-filter"])] else []
  | some desired =>
      let cleaf := fun (sub : String) (liveText : Option String)
          (text : String) =>
        leafDiff (sslNode ++ ["content-filter", sub]) liveText (some text)
      cleaf "icap-host" (live.map SslContentFilter.icapHost) desired.icapHost ++
      cleaf "icap-port" (live.map fun live => toString live.icapPort)
        (toString desired.icapPort) ++
      cleaf "reqmod-service" (live.map SslContentFilter.reqmodService)
        desired.reqmodService ++
      cleaf "respmod-service" (live.map SslContentFilter.respmodService)
        desired.respmodService ++
      cleaf "fail-mode" (live.map fun live => live.failMode.text)
        desired.failMode.text

def diffSslInspection (live desired : SslInspectionConfig) :
    List VyosCommand :=
  flagDiff (sslNode ++ ["enable"]) live.enabled desired.enabled ++
  leafDiff (sslNode ++ ["intercept-port"]) (some (toString live.interceptPort))
    (some (toString desired.interceptPort)) ++
  leafDiff (sslNode ++ ["default-action"]) (some live.defaultAction.text)
    (some desired.defaultAction.text) ++
  leafDiff (sslNode ++ ["upstream-invalid"]) (some live.upstreamInvalid.text)
    (some desired.upstreamInvalid.text) ++
  flagDiff (sslNode ++ ["disable-default-exclusions"]) (!live.defaultExclusions)
    (!desired.defaultExclusions) ++
  policyDiff live.policies desired.policies ++
  multiDiff (sslNode ++ ["no-inspect"]) live.noInspect desired.noInspect ++
  multiDiff (sslNode ++ ["ca-download", "interface"]) live.caDownloadInterfaces
    desired.caDownloadInterfaces ++
  contentFilterDiff live.contentFilter desired.contentFilter

end QuartzFire.Firewall
