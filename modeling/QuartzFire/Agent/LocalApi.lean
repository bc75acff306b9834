import QuartzFire.Foundation.UrlDirectory

/-!
# Replaying requests of the controller

The agent replays what the controller asks for against the management API of
the device, and means to refuse every path outside of it.  It looks at the path
as it is spelled, while the request goes to where the path resolves to.
-/

namespace QuartzFire.Agent.Replay

open UrlPath

/-! ## Calls -/

/-- An address to listen on: a host and a port. -/
structure Address where
  text : List Char
  some : text ≠ []
  plain : ∀ char ∈ text, inAuthority char = true ∧ isBlank char = false

/-- The settings of the web UI that are read, and what minting a session token
gives. -/
structure LocalApi where
  listen : Address
  token : Except String String

inductive Method where
  | get
  | post
  | put
  | delete
  deriving DecidableEq

def methodOf (text : String) : Option Method :=
  match text with
  | "GET" => some .get
  | "POST" => some .post
  | "PUT" => some .put
  | "DELETE" => some .delete
  | _ => none

structure Request where
  method : Method
  url : List Char
  token : String
  contentType : Option String
  body : Option (List UInt8)
  deriving DecidableEq

structure Response where
  status : UInt16
  contentType : Option String
  body : Except String (List UInt8)

/-- What a failed call is reported as; the first two quote the text. -/
inductive CallError where
  | invalidPath (path : List Char)
  | unsupportedMethod (method : String)
  | token (error : String)
  | unreachable (error : String)
  | reading (error : String)
  deriving DecidableEq

inductive Reply where
  | failed (error : CallError)
  | answered (status : UInt16) (contentType : String) (body : List UInt8)

/-- The request that a call sends. -/
def LocalApi.request (api : LocalApi) (method : String) (path : List Char)
    (contentType : String) (body : List UInt8) : Except CallError Request :=
  if !"/api/".toList.isPrefixOf path || containsText "..".toList path then
    .error (.invalidPath path)
  else
    match methodOf method with
    | none => .error (.unsupportedMethod method)
    | some method =>
        match api.token with
        | .error error => .error (.token error)
        | .ok token => .ok
            { method := method
              url := "http://".toList ++ api.listen.text ++ path
              token := token
              contentType := if contentType = "" then none else some contentType
              body := if body = [] then none else some body }

/-- `send` is the client. -/
def LocalApi.call (api : LocalApi) (send : Request → Except String Response)
    (method : String) (path : List Char) (contentType : String)
    (body : List UInt8) : Reply :=
  match api.request method path contentType body with
  | .error error => .failed error
  | .ok request =>
      match send request with
      | .error error => .failed (.unreachable error)
      | .ok response =>
          match response.body with
          | .error error => .failed (.reading error)
          | .ok body =>
              .answered response.status (response.contentType.getD "") body

/-! ## Where a call goes -/

/-- The URL has the host that is configured and a path of the management API. -/
def Stays (api : LocalApi) (url : List Char) : Prop :=
  ∃ rest, parseHttp url = some (api.listen.text, rest) ∧
    "/api/".toList <+: urlPath rest

/-- The part of a path that is read. -/
def readPath (path : List Char) : List Char :=
  ((trimBlanksEnd path).filter (!isTabOrBreak ·)).takeWhile
    fun char => char ≠ '?' && char ≠ '#'

/-- The double dots of the path, encoded ones included, lead out of `api` only
to lead into it again. -/
def KeepsInside (path : List Char) : Prop :=
  StaysBelow "api".toList (segmentsOf (readPath path))

theorem request_eq_ok {api : LocalApi} {method : String} {path : List Char}
    {contentType : String} {body : List UInt8} {request : Request}
    (accepted : api.request method path contentType body = .ok request) :
    "/api/".toList <+: path ∧
      request.url = "http://".toList ++ api.listen.text ++ path := by
  unfold LocalApi.request at accepted
  split at accepted
  · cases accepted
  · rename_i passes
    rw [Bool.or_eq_true, not_or, Bool.not_eq_true, Bool.not_eq_false'] at passes
    split at accepted
    · cases accepted
    · split at accepted
      · cases accepted
      · cases accepted
        exact ⟨List.isPrefixOf_iff_prefix.mp passes.1, rfl⟩

theorem isTabOrBreak_blank {char : Char} (drops : isTabOrBreak char = true) :
    isBlank char = true := by
  unfold isTabOrBreak at drops
  rw [Bool.or_eq_true, Bool.or_eq_true, decide_eq_true_eq, decide_eq_true_eq,
    decide_eq_true_eq] at drops
  rcases drops with (rfl | rfl) | rfl
  · decide
  · decide
  · decide

theorem Address.no_tab (listen : Address) :
    listen.text.filter (!isTabOrBreak ·) = listen.text := by
  apply List.filter_eq_self.mpr
  intro char member
  cases drops : isTabOrBreak char with
  | false => rfl
  | true =>
      have blank := isTabOrBreak_blank drops
      rw [(listen.plain char member).2] at blank
      cases blank

theorem Address.no_separator (listen : Address) (rest : List Char) :
    (listen.text ++ rest).dropWhile isSeparator = listen.text ++ rest := by
  obtain ⟨first, others, text⟩ := List.exists_cons_of_ne_nil listen.some
  have inside := (listen.plain first (by simp [text])).1
  rw [text, List.cons_append, List.dropWhile_cons_of_neg]
  intro separates
  unfold inAuthority at inside
  rw [separates] at inside
  cases inside

/-- A slash is not blank, so only what follows it is trimmed. -/
theorem trimBlanksEnd_slash (front rest : List Char) :
    trimBlanksEnd (front ++ '/' :: rest) = front ++ '/' :: trimBlanksEnd rest :=
  trimBlanksEnd_append (by decide)

theorem cleaned_url (listen : Address) (rest : List Char) :
    cleaned ("http://".toList ++ listen.text ++ '/' :: rest) =
      "http:".toList ++ ("//".toList ++ (listen.text ++
        '/' :: (trimBlanksEnd rest).filter (!isTabOrBreak ·))) := by
  have begins : ("http://".toList ++ listen.text ++ '/' :: rest).dropWhile
      isBlank = "http://".toList ++ listen.text ++ '/' :: rest := rfl
  rw [cleaned, begins, trimBlanksEnd_slash, List.filter_append,
    List.filter_append, listen.no_tab, List.append_assoc]
  rfl

/-- The host is the one that is configured, whatever the path. -/
theorem parseHttp_url (listen : Address) (rest : List Char) :
    parseHttp ("http://".toList ++ listen.text ++ '/' :: rest) =
      some (listen.text,
        (trimBlanksEnd ('/' :: rest)).filter (!isTabOrBreak ·)) := by
  have authority : ∀ char ∈ listen.text, inAuthority char = true :=
    fun char member => (listen.plain char member).1
  have separators : ∀ char ∈ "//".toList, isSeparator char = true :=
    List.all_eq_true.mp rfl
  have trimmed := trimBlanksEnd_slash [] rest
  rw [List.nil_append, List.nil_append] at trimmed
  rw [parseHttp, cleaned_url, stripPrefix_eq_some.mpr rfl, Option.map_some,
    List.dropWhile_append_of_pos separators, listen.no_separator]
  dsimp only
  rw [List.takeWhile_append_of_pos authority,
    List.dropWhile_append_of_pos authority, trimmed,
    List.takeWhile_cons_of_neg (by decide),
    List.dropWhile_cons_of_neg (by decide), List.append_nil]
  rfl

theorem stays_iff {api : LocalApi} {method : String} {path : List Char}
    {contentType : String} {body : List UInt8} {request : Request}
    (accepted : api.request method path contentType body = .ok request) :
    Stays api request.url ↔ KeepsInside path := by
  obtain ⟨⟨rest, rfl⟩, url⟩ := request_eq_ok accepted
  have parsed := parseHttp_url api.listen ("api/".toList ++ rest)
  have below := @prefix_urlPath_iff "api".toList ⟨by decide, by decide⟩
    (by decide) ((trimBlanksEnd ('/' :: ("api/".toList ++ rest))).filter
      (!isTabOrBreak ·))
  rw [url]
  unfold Stays
  constructor
  · rintro ⟨read, same, inside⟩
    cases parsed.symm.trans same
    exact below.mp inside
  · intro inside
    exact ⟨_, parsed, below.mpr inside⟩

/-! ### Two calls -/

/-- The web UI with its defaults. -/
def webui : LocalApi where
  listen :=
    { text := "127.0.0.1:8181".toList
      some := by decide
      plain := by
        have plain : "127.0.0.1:8181".toList.all (fun char =>
            inAuthority char && !isBlank char) = true := rfl
        simpa using plain }
  token := .ok "token"

theorem rules_stay :
    Stays webui ("http://127.0.0.1:8181/api/firewall/%2e%2e/rules".toList) :=
  (@stays_iff webui "GET" "/api/firewall/%2e%2e/rules".toList "" [] _ rfl).mpr
    ⟨[], ["firewall".toList, "%2e%2e".toList, "rules".toList], by decide, rfl,
      by decide, by decide⟩

/-- An encoded double dot leaves the management API. -/
theorem encoded_dots_leave :
    ¬ ∀ (api : LocalApi) method path contentType body request,
      api.request method path contentType body = .ok request →
        Stays api request.url := by
  intro all
  obtain ⟨rest, parsed, inside⟩ :=
    all webui "GET" "/api/%2e%2e/image".toList "" [] _ rfl
  have actual : parseHttp "http://127.0.0.1:8181/api/%2e%2e/image".toList =
      some ("127.0.0.1:8181".toList, "/api/%2e%2e/image".toList) := by
    decide
  cases actual.symm.trans parsed
  revert inside
  decide

end QuartzFire.Agent.Replay
