import QuartzFire.Editing.Fields
import QuartzFire.Foundation.Fallible

/-!
# Static routes

A destination of `protocols static` has one node, which its next-hops and
their description share.  The console lists one row for each next-hop, and
edits and deletes rows.
-/

namespace QuartzFire.Routing

open ConfigTree Editing
open Firewall (Cfg Path VyosCommand trimmed childStr has)

inductive RouteFamily where
  | ipv4
  | ipv6
  deriving DecidableEq, Repr

/-- How the route reaches its destination. -/
inductive StaticRouteKind where
  | gateway
  | interface
  | blackhole
  deriving DecidableEq, Repr

/-- Identity of a row within the config tree. -/
@[ext] structure HopId where
  family : RouteFamily
  destination : String
  kind : StaticRouteKind
  via : Option String
  deriving DecidableEq, Repr

/-- One next-hop of a static route. -/
structure StaticRoute (Num : Type) extends HopId where
  /-- Optional egress interface on a gateway next-hop. -/
  interface : Option String
  distance : Option Num
  enabled : Bool
  /-- Route-level description. -/
  description : Option String
  deriving DecidableEq, Repr

/-- Desired next-hop; when `original` differs from its identity the edit is a
move. -/
structure StaticRouteUpdate (Num : Type) extends HopId where
  interface : Option String
  distance : Option Num
  enabled : Bool
  description : Option String
  original : Option HopId
  deriving DecidableEq, Repr

/-- `ROUTE_NODE` -/
def RouteFamily.routeNode : RouteFamily → String
  | .ipv4 => "route"
  | .ipv6 => "route6"

def routeBase (family : RouteFamily) (destination : String) : Path :=
  ["protocols", "static", family.routeNode, destination]

/-- Where a next-hop is within its route. -/
def hopLeaf (kind : StaticRouteKind) (via : Option String) : Path :=
  match kind with
  | .gateway => ["next-hop", via.getD ""]
  | .interface => ["interface", via.getD ""]
  | .blackhole => ["blackhole"]

abbrev HopId.base (id : HopId) : Path := routeBase id.family id.destination

/-- Config path of one next-hop node. -/
def hopPath (id : HopId) : Path := id.base ++ hopLeaf id.kind id.via

section Data

variable {Num : Type} (numerals : Numerals Num)

/-! ## Reading -/

def asDistance (v : Cfg) : Option Num := childNum numerals v "distance"

def isEnabled (v : Cfg) : Bool := !has v "disable"

/-- The row of a next-hop node. -/
def parseHop (id : HopId) (description : Option String) (hop : Cfg) :
    StaticRoute Num :=
  { id with
    interface := if id.kind = .gateway then childStr hop "interface" else none
    distance := asDistance numerals hop
    enabled := id.kind = .blackhole || isEnabled hop
    description := description }

/-- The rows of one destination. -/
def parseRoute (family : RouteFamily) (destination : String) (cfg : Cfg) :
    List (StaticRoute Num) :=
  let description := childStr cfg "description"
  ((objectEntries (childNode cfg "next-hop")).map fun (via, hop) =>
      parseHop numerals ⟨family, destination, .gateway, some via⟩ description
        hop) ++
    ((objectEntries (childNode cfg "interface")).map fun (via, hop) =>
      parseHop numerals ⟨family, destination, .interface, some via⟩ description
        hop) ++
    if has cfg "blackhole" then
      [parseHop numerals ⟨family, destination, .blackhole, none⟩ description
        (childNode cfg "blackhole")]
    else []

/-- By destination, then by next-hop. -/
def routeLe (locale : Firewall.Locale) (a b : StaticRoute Num) : Bool :=
  if locale.le a.destination b.destination &&
      locale.le b.destination a.destination then
    locale.le (a.via.getD "") (b.via.getD "")
  else locale.le a.destination b.destination

def parseFamily (locale : Firewall.Locale) (staticCfg : Cfg)
    (family : RouteFamily) : List (StaticRoute Num) :=
  ((objectEntries (childNode staticCfg family.routeNode)).flatMap
    fun (destination, cfg) => parseRoute numerals family destination cfg)
    |>.insertionSort fun a b => routeLe locale a b

/-- `protocols static` of the running configuration. -/
def staticConfig (root : Cfg) : Cfg :=
  childNode (childNode root "protocols") "static"

/-- Configured static routes, one row per next-hop. -/
def fetchStaticRoutes (locale : Firewall.Locale) (root : Cfg) :
    List (StaticRoute Num) :=
  parseFamily numerals locale (staticConfig root) .ipv4 ++
    parseFamily numerals locale (staticConfig root) .ipv6

/-! ## Writing -/

/-- Rows that belong to the same route node. -/
def siblings (rows : List (StaticRoute Num)) (family : RouteFamily)
    (destination : String) : List (StaticRoute Num) :=
  rows.filter fun r => r.family = family ∧ r.destination = destination

/-- The rows beside one in its route. -/
def others (rows : List (StaticRoute Num)) (id : HopId) :
    List (StaticRoute Num) :=
  (siblings rows id.family id.destination).filter fun r => r.toHopId ≠ id

/-- Drop one next-hop, or the whole route when it is the only one. -/
def dropHop (existing : List (StaticRoute Num)) (id : HopId) :
    List VyosCommand :=
  [.delete (if others existing id = [] then id.base else hopPath id)]

variable (live : Option (StaticRoute Num)) (u : StaticRouteUpdate Num)

/-- The edited row is moved to another identity. -/
def StaticRouteUpdate.moved (u : StaticRouteUpdate Num) : Bool :=
  u.original.any (· ≠ u.toHopId)

/-- What a save pushes below the next-hop.  Blackhole has no disable knob. -/
def hopPushes : List (Push Num) :=
  [.number ["distance"] (live.bind StaticRoute.distance) u.distance] ++
    (if u.kind = .gateway then
      [.leaf ["interface"] (live.bind StaticRoute.interface) u.interface]
    else []) ++
    if u.kind ≠ .blackhole then
      [.flag ["disable"] (!(live.map StaticRoute.enabled).getD true) !u.enabled]
    else []

/-- The row an edit is compared with; after a move it is brand new. -/
def liveHop (existing : List (StaticRoute Num)) (u : StaticRouteUpdate Num) :
    Option (StaticRoute Num) :=
  if u.moved then none
  else u.original.bind fun o => existing.find? (·.toHopId = o)

/-- A move deletes the old next-hop first. -/
def dropMoved (existing : List (StaticRoute Num)) (u : StaticRouteUpdate Num) :
    List VyosCommand :=
  if u.moved then (u.original.map (dropHop existing)).getD [] else []

/-- The whole route of the next-hop that is moved within it goes. -/
def wipedHere (existing : List (StaticRoute Num)) (u : StaticRouteUpdate Num) :
    Bool :=
  u.moved && u.original.any fun o => others existing o = [] ∧
    o.family = u.family ∧ o.destination = u.destination

/-- The description an edit is compared with: that of the first row of the
route. -/
def liveDescription (existing : List (StaticRoute Num))
    (u : StaticRouteUpdate Num) : Option String :=
  if wipedHere existing u then none
  else (existing.find? fun r =>
    r.family = u.family ∧ r.destination = u.destination).bind
      StaticRoute.description

/-- Apply a desired static route next-hop. -/
def applyStaticRoute (existing : List (StaticRoute Num))
    (u : StaticRouteUpdate Num) : List VyosCommand :=
  let live := liveHop existing u
  dropMoved existing u ++
    (made live.isSome (laid ((hopPushes live u).map (Push.block numerals)))).map
      (Command.under (hopPath u.toHopId)) ++
    (leaf ["description"] (liveDescription existing u) u.description).map
      (Command.under u.base)

/-- Delete one next-hop, or its whole route node when it is the last one. -/
def deleteStaticRoute (existing : List (StaticRoute Num))
    (row : StaticRoute Num) : List VyosCommand :=
  dropHop existing row.toHopId

end Data

/-! ## The form -/

structure StaticRouteForm where
  kind : StaticRouteKind
  destination : String
  via : String
  iface : String
  distance : String
  description : String
  enabled : Bool
  deriving DecidableEq, Repr

/-- `\d{low,high}` -/
def isDigits (low high : Nat) (text : List Char) : Bool :=
  low ≤ text.length && text.length ≤ high && text.all Char.isDigit

/-- `[0-9a-f:]+`, in either case -/
def isV6Addr (text : List Char) : Bool :=
  !text.isEmpty && text.all fun char =>
    char.isDigit || char.toLower ∈ "abcdef:".toList

/-- `V4_ADDR_RE` -/
def isV4Addr (text : List Char) : Bool :=
  let octets := text.splitOn '.'
  octets.length = 4 && octets.all (isDigits 1 3)

/-- `V4_CIDR_RE` and `V6_CIDR_RE` -/
def isCidr (family : RouteFamily) (text : List Char) : Bool :=
  match family, text.splitOn '/' with
  | .ipv4, [address, length] =>
      isV4Addr address &&
        (List.range 33).any fun bits => (toString bits).toList == length
  | .ipv6, [address, length] =>
      isV6Addr address && (isDigits 1 2 length ||
        (List.range 29).any fun bits => (toString (100 + bits)).toList == length)
  | _, _ => false

/-- `V4_ADDR_RE` and `V6_ADDR_RE` -/
def isAddr : RouteFamily → List Char → Bool
  | .ipv4 => isV4Addr
  | .ipv6 => isV6Addr

def RouteFamily.title : RouteFamily → String
  | .ipv4 => "IPv4"
  | .ipv6 => "IPv6"

section Submitting

variable {Num : Type} [NatCast Num] [LE Num] [DecidableLE Num]

/-- The distance field: blank, or a whole number between 1 and 255. -/
def submitDistance (numerals : Numerals Num) (text : String) :
    Except String (Option Num) :=
  match trimmed text with
  | none => .ok none
  | some d =>
      match numerals.number d with
      | some num =>
          if ((1 : Nat) : Num) ≤ num ∧ num ≤ ((255 : Nat) : Num) then
            .ok (some num)
          else .error "Distance must be a whole number between 1 and 255."
      | none => .error "Distance must be a whole number between 1 and 255."

/-- `submit` -/
def submitStaticRoute (numerals : Numerals Num) (family : RouteFamily)
    (initial : Option (StaticRoute Num)) (existing : List (StaticRoute Num))
    (form : StaticRouteForm) : Except String (StaticRouteUpdate Num) :=
  let dst := Firewall.trim form.destination
  let v := Firewall.trim form.via
  if isCidr family dst.toList = false then
    .error ("Destination must be an " ++ family.title ++
      " network in CIDR notation.")
  else if form.kind = .gateway ∧ isAddr family v.toList = false then
    .error ("Gateway must be an " ++ family.title ++ " address.")
  else if form.kind = .interface ∧ v = "" then
    .error "Pick the interface the route leaves through."
  else
    match submitDistance numerals form.distance with
    | .error message => .error message
    | .ok distance =>
        let newVia := if form.kind = .blackhole then none else some v
        if existing.any fun r =>
            r.family = family && r.destination = dst && r.kind = form.kind &&
              r.via = newVia && !initial.any fun i =>
                r.destination = i.destination && r.kind = i.kind &&
                  r.via = i.via then
          .error "That exact route already exists."
        else
          .ok
            { family := family
              destination := dst
              kind := form.kind
              via := newVia
              interface :=
                if form.kind = .gateway then trimmed form.iface else none
              distance := distance
              enabled := form.enabled
              description := trimmed form.description
              original := initial.map StaticRoute.toHopId }

end Submitting

end QuartzFire.Routing
