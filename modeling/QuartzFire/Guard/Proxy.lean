import QuartzFire.Foundation.Text
import QuartzFire.Foundation.UrlPath
import QuartzFire.Guard.CommitConfirm

/-!
# The proxy to the VyOS API

Requests below `/api` that no other route takes go on to the VyOS API.  While a
change awaits confirmation the proxy refuses what begins with the paths of the
two endpoints that write the configuration.
-/

namespace QuartzFire.Guard

open UrlPath

abbrev Text := List Char

inductive Method where
  | get
  | head
  | post
  | put
  | patch
  | delete
  | options
  | other
  deriving DecidableEq

/-- The path and the query of a request line. -/
structure Uri where
  path : Text
  query : Option Text
  /-- The query and the fragment are not part of the path. -/
  plain : ∀ char ∈ path, char ≠ '?' ∧ char ≠ '#'

structure Request where
  method : Method
  uri : Uri
  body : List UInt8
  /-- Whether `require_auth` lets it pass. -/
  authorised : Bool

/-! ## Routes -/

/-- The routes below `/api` that are not the proxy's. -/
def routes : List String :=
  ["/api/auth/login", "/api/auth/logout", "/api/auth/me",
    "/api/dashboard/layout", "/api/monitor/firewall-log",
    "/api/monitor/firewall-log/recent", "/api/monitor/system-log",
    "/api/monitoring/devices", "/api/monitoring/usage",
    "/api/monitoring/flows", "/api/monitoring/flows/renumber",
    "/api/monitoring/devices/:mac", "/api/monitoring/devices/:mac/ping",
    "/api/monitoring/devices/:mac/ping/stream", "/api/bgp/summary",
    "/api/bgp/neighbor/:id", "/api/mpls/status", "/api/mpls/bindings",
    "/api/mpls/table", "/api/ospf/summary", "/api/isis/summary",
    "/api/ips/status", "/api/ips/settings", "/api/ips/update",
    "/api/ips/alerts", "/api/ips/alerts/history", "/api/appcontrol/status",
    "/api/appcontrol/settings", "/api/appcontrol/catalog",
    "/api/appcontrol/usage", "/api/appcontrol/alerts",
    "/api/appcontrol/alerts/history", "/api/geolocation/status",
    "/api/geolocation/countries", "/api/geolocation/traffic",
    "/api/geolocation/update", "/api/geolocation/lookup",
    "/api/geolocation/alerts", "/api/geolocation/alerts/history",
    "/api/ssl-inspection/status", "/api/ssl-inspection/ca.crt",
    "/api/ssl-inspection/ca.der", "/api/ssl-inspection/regenerate",
    "/api/content-filtering/status", "/api/content-filtering/categories",
    "/api/content-filtering/update", "/api/content-filtering/logs",
    "/api/content-filtering/test-url", "/api/guard/apply",
    "/api/guard/confirm", "/api/guard/revert", "/api/guard/pending",
    "/api/config/backup", "/api/config/restore", "/api/config/rollback",
    "/api/system/factory-reset", "/api/system/reboot",
    "/api/quartz-command/status", "/api/system/shutdown-schedule",
    "/api/interfaces/phy", "/api/high-availability/config-sync/test",
    "/api/image/upload", "/api/image/status"]

/-- A segment that begins with a colon takes any segment that is not empty. -/
def matchesRoute (route path : Text) : Bool :=
  let wanted := route.splitOn '/'
  let given := path.splitOn '/'
  wanted.length = given.length &&
    (wanted.zip given).all fun (name, segment) =>
      if name.head? = some ':' then segment ≠ [] else name = segment

inductive Destination where
  | proxy
  | imageOp
  | elsewhere
  deriving DecidableEq

def dispatch (method : Method) (path : Text) : Destination :=
  if path = "/api/image".toList then
    if method = .post then .imageOp else .elsewhere
  else if routes.any fun route => matchesRoute route.toList path then
    .elsewhere
  else if path = "/api".toList then .proxy
  else if "/api/".toList.isPrefixOf path && path ≠ "/api/".toList then .proxy
  else .elsewhere

/-! ## The proxy -/

structure Forwarded where
  method : Method
  /-- What follows the origin of the VyOS API in the URL. -/
  target : Text
  body : List UInt8

def unreserved (byte : UInt8) : Bool :=
  let char := Char.ofNat byte.toNat
  char.isAlphanum || char ∈ ['-', '_', '.', '~']

def hexDigit (value : Nat) : UInt8 :=
  if value < 10 then (48 + value).toUInt8 else (55 + value).toUInt8

def percentEncode (text : List UInt8) : List UInt8 :=
  text.flatMap fun byte =>
    if unreserved byte then [byte]
    else [37, hexDigit (byte.toNat / 16), hexDigit (byte.toNat % 16)]

/-- The API key goes into the form behind what the client sent. -/
def injectKey (apiKey body : List UInt8) : List UInt8 :=
  if apiKey = [] then body
  else (if body = [] then [] else body ++ "&".toUTF8.toList) ++
    "key=".toUTF8.toList ++ percentEncode apiKey

def Uri.pathAndQuery (uri : Uri) : Text :=
  match uri.query with
  | some query => uri.path ++ '?' :: query
  | none => uri.path

def forwardTarget (uri : Uri) : Text :=
  let path := uri.pathAndQuery
  let path := (stripPrefix "/api".toList path).getD path
  if path = [] then ['/'] else path

def forward (apiKey : List UInt8) (request : Request) : Forwarded where
  method := request.method
  target := forwardTarget request.uri
  body := injectKey apiKey request.body

def rawWrite (path : Text) : Bool :=
  "/api/configure".toList.isPrefixOf path ||
    "/api/config-file".toList.isPrefixOf path

section Serving

variable {Config : Type} (isAdd : List UInt8 → Bool) (apiKey : List UInt8)

/-- `proxy::handler`, up to the request it sends on. -/
def handler (guard : State Config) (request : Request) : Option Forwarded :=
  if rawWrite request.uri.path && guard.isPending then none
  else some (forward apiKey request)

def maxIsoBytes : Nat := 4 * 1024 * 1024 * 1024

/-- `image::op`, up to the request it sends on; `isAdd` says which bodies ask to
add an image. -/
def imageOp (guard : State Config) (request : Request) : Option Forwarded :=
  if maxIsoBytes < request.body.length then none
  else if isAdd request.body then none
  else handler apiKey guard request

/-- What the backend forwards of a request. -/
def serve (guard : State Config) (request : Request) : Option Forwarded :=
  if request.authorised then
    match dispatch request.method request.uri.path with
    | .proxy => handler apiKey guard request
    | .imageOp => imageOp isAdd apiKey guard request
    | .elsewhere => none
  else none

end Serving

/-! ## Raw writes -/

/-- The endpoints that write the configuration. -/
def writeEndpoints : List Text :=
  ["configure".toList, "config-file".toList]

def Forwarded.Denotes (forwarded : Forwarded) : Prop :=
  ∃ word ∈ writeEndpoints, servedPath forwarded.target = '/' :: word

/-- A request that the proxy takes, that does not begin with the path of an
endpoint and that spells one out all the same. -/
def Disguised (request : Request) : Prop :=
  request.authorised = true ∧
    dispatch request.method request.uri.path = .proxy ∧
      rawWrite request.uri.path = false ∧
        ∃ word ∈ writeEndpoints,
          SpelledOut word (segmentsOf (request.uri.path.drop 4))

theorem writeEndpoints_proper : ∀ word ∈ writeEndpoints,
    '/' ∉ word ∧ word ∉ [[], ".".toList, "..".toList] := by
  decide

theorem takeWhile_pathAndQuery (uri : Uri) (path : Text)
    (inside : ∀ char ∈ path, char ∈ uri.path) :
    ((match uri.query with
      | some query => path ++ '?' :: query
      | none => path).takeWhile fun char => char ≠ '?' && char ≠ '#') =
      path := by
  have plain : ∀ char ∈ path, (char ≠ '?' && char ≠ '#') = true := by
    intro char member
    simpa using uri.plain char (inside char member)
  cases uri.query with
  | none => exact List.takeWhile_eq_self_iff.mpr plain
  | some query =>
      simp only [List.takeWhile_append_of_pos plain]
      simp

/-- What is behind `/api` is the path that is asked for. -/
theorem segmentsOf_forwardTarget (uri : Uri) {rest : Text}
    (below : uri.path = "/api".toList ++ rest) :
    segmentsOf ((forwardTarget uri).takeWhile
      fun char => char ≠ '?' && char ≠ '#') = segmentsOf rest := by
  have inside : ∀ char ∈ rest, char ∈ uri.path := by
    intro char member
    rw [below]
    exact List.mem_append_right _ member
  have cut := takeWhile_pathAndQuery uri rest inside
  have stripped : stripPrefix "/api".toList uri.pathAndQuery =
      some (match uri.query with
        | some query => rest ++ '?' :: query
        | none => rest) := by
    rw [Uri.pathAndQuery, below, stripPrefix]
    cases uri.query <;> simp
  rw [forwardTarget, stripped]
  simp only [Option.getD_some]
  split_ifs with empty
  · rw [empty] at cut
    rw [← cut]
    rfl
  · rw [cut]

theorem denotes_forward_iff (apiKey : List UInt8) (request : Request)
    {rest : Text} (below : request.uri.path = "/api".toList ++ rest) :
    (forward apiKey request).Denotes ↔
      ∃ word ∈ writeEndpoints, SpelledOut word (segmentsOf rest) := by
  refine exists_congr fun word => and_congr_right fun member => ?_
  obtain ⟨plain, proper⟩ := writeEndpoints_proper word member
  rw [servedPath_eq_iff plain proper, forward,
    segmentsOf_forwardTarget request.uri below]

theorem dispatch_proxy {method : Method} {path : Text}
    (proxied : dispatch method path = .proxy) :
    path = "/api".toList ++ path.drop 4 := by
  rw [dispatch] at proxied
  split_ifs at proxied with image post route exact below
  · rw [exact]
    rfl
  · rw [Bool.and_eq_true, List.isPrefixOf_iff_prefix] at below
    obtain ⟨⟨rest, rfl⟩, _⟩ := below
    rfl

theorem dispatch_imageOp {method : Method} {path : Text}
    (intercepted : dispatch method path = .imageOp) :
    path = "/api".toList ++ "/image".toList := by
  rw [dispatch] at intercepted
  split_ifs at intercepted with image post
  exact image

/-- The image endpoint spells nothing else. -/
theorem image_not_spelledOut : ∀ word ∈ writeEndpoints,
    ¬ SpelledOut word (segmentsOf "/image".toList) := by
  decide +kernel

section Serving

variable {Config : Type} {guard : State Config} {request : Request}

theorem mem_handler {apiKey : List UInt8} {forwarded : Forwarded}
    (awaiting : guard.isPending = true) :
    forwarded ∈ handler apiKey guard request ↔
      rawWrite request.uri.path = false ∧
        forwarded = forward apiKey request := by
  rw [handler, awaiting, Bool.and_true]
  cases rawWrite request.uri.path <;> simp [eq_comm]

theorem mem_imageOp {isAdd : List UInt8 → Bool} {apiKey : List UInt8}
    {forwarded : Forwarded}
    (member : forwarded ∈ imageOp isAdd apiKey guard request) :
    forwarded ∈ handler apiKey guard request := by
  rw [imageOp] at member
  split_ifs at member
  · cases member
  · cases member
  · exact member

/-- While a change awaits confirmation, no request but a disguised one reaches
an endpoint that writes the configuration. -/
theorem no_raw_write_iff (isAdd : List UInt8 → Bool) (apiKey : List UInt8)
    (awaiting : guard.isPending = true) (request : Request) :
    (∀ forwarded ∈ serve isAdd apiKey guard request, ¬ forwarded.Denotes) ↔
      ¬ Disguised request := by
  rw [serve, Disguised]
  by_cases authorised : request.authorised = true
  swap
  · simp [authorised]
  rw [if_pos authorised]
  cases destination : dispatch request.method request.uri.path with
  | proxy =>
      have below := dispatch_proxy destination
      simp only [mem_handler awaiting, and_imp]
      constructor
      · rintro none_denotes ⟨_, _, passes, spelled⟩
        refine none_denotes _ passes rfl ?_
        exact (denotes_forward_iff apiKey request below).mpr spelled
      · rintro notDisguised _ passes rfl denotes
        refine notDisguised ⟨authorised, trivial, passes, ?_⟩
        exact (denotes_forward_iff apiKey request below).mp denotes
  | imageOp =>
      have below := dispatch_imageOp destination
      refine iff_of_true (fun forwarded member denotes => ?_) (by simp)
      obtain ⟨_, rfl⟩ := (mem_handler awaiting).mp (mem_imageOp member)
      obtain ⟨word, listed, spelled⟩ :=
        (denotes_forward_iff apiKey request below).mp denotes
      exact image_not_spelledOut word listed spelled
  | elsewhere => simp

end Serving

/-! ## An empty segment -/

def awaitingGuard : State Unit where
  running := ⟨(), [0]⟩
  boot := ⟨(), []⟩
  snapshot := some ⟨⟨(), []⟩, some 0⟩
  loadFile := none
  archive := []
  pending := some 0
  reverting := false
  threads := []
  confirmed := []
  base := fun _ => none

/-- What the interface itself asks of the VyOS API. -/
def retrieveRequest : Request where
  method := .post
  uri := ⟨"/api/retrieve".toList, some "a=/../configure".toList, by simp⟩
  body := []
  authorised := true

theorem retrieveRequest_writes_nothing :
    awaitingGuard.isPending = true ∧
      ∀ forwarded ∈ serve (fun _ => false) [] awaitingGuard retrieveRequest,
        ¬ forwarded.Denotes := by
  have plain : ¬ Disguised retrieveRequest := by
    rintro ⟨_, _, _, spelled⟩
    revert spelled
    decide +kernel
  exact ⟨by decide,
    (no_raw_write_iff (fun _ => false) [] (by decide) retrieveRequest).mpr
      plain⟩

def doubledRequest : Request where
  method := .post
  uri := ⟨"/api//configure".toList, none, by simp⟩
  body := []
  authorised := true

theorem doubled_slash_writes :
    ∃ (guard : State Unit) (request : Request), guard.isPending = true ∧
      ∃ forwarded ∈ serve (fun _ => false) [] guard request,
        forwarded.Denotes := by
  refine ⟨awaitingGuard, doubledRequest, by decide,
    forward [] doubledRequest, ?_, "configure".toList, by decide, ?_⟩
  · have destination : dispatch doubledRequest.method
        doubledRequest.uri.path = .proxy := by
      decide +kernel
    have authorised : doubledRequest.authorised = true := rfl
    rw [serve, if_pos authorised, destination]
    exact (mem_handler (by decide)).mpr ⟨by decide, rfl⟩
  · decide +kernel

end QuartzFire.Guard
