import QuartzFire.Inspection.Model
import QuartzFire.Nft.Matching

/-!
# What SSL inspection renders

The fragment of Squid's configuration and the `qz_ssl` table.  The table sends
traffic to Squid by the replicated matches, each of them narrowed to TLS.
-/

namespace QuartzFire.SslInspection

open Nft

/-! ## The Squid fragment -/

def icapBlock (filter : ContentFilter) : String :=
  let bypass := if filter.failClosed then "off" else "on"
  let endpoint := "icap://" ++ filter.icapHost ++ ":" ++
    toString filter.icapPort ++ "/"
  "\n# ── Content-filter adaptation (ICAP) ────────────────────────────────\n" ++
  "# Squid bumps first, so the engine below receives PLAINTEXT HTTP. Any\n" ++
  "# attached engine (e2guardian ICAP-mode / c-icap+ClamAV) is a pure\n" ++
  "# filtering consumer — it must never do TLS MITM or hold a CA.\n" ++
  "icap_enable on\n" ++
  "icap_preview_enable on\n" ++
  "icap_preview_size 1024\n" ++
  "icap_send_client_ip on\n" ++
  "icap_send_client_username off\n" ++
  "# e2guardian is STATEFUL REQMOD→RESPMOD: it stamps an X-ICAP-E2G header\n" ++
  "# on the REQMOD reply and rejects any RESPMOD lacking it (\"418 Bad\n" ++
  "# composition\"). Share it across the master transaction, else every\n" ++
  "# allowed site dies on RESPMOD with ERR_ICAP_FAILURE. Proven in\n" ++
  "# tests/e2guardian-icap. Harmless for engines that don't set it.\n" ++
  "adaptation_masterx_shared_names X-ICAP-E2G\n" ++
  "icap_service qf_filter_req reqmod_precache " ++ endpoint ++
    filter.reqmodService ++ " bypass=" ++ bypass ++ "\n" ++
  "icap_service qf_filter_resp respmod_precache " ++ endpoint ++
    filter.respmodService ++ " bypass=" ++ bypass ++ "\n" ++
  "adaptation_access qf_filter_req allow all\n" ++
  "adaptation_access qf_filter_resp allow all\n"

inductive Part where
  | text (body : String)
  | icap (filter : ContentFilter)
  deriving DecidableEq

def Part.body : Part → String
  | .text body => body
  | .icap filter => icapBlock filter

def fragmentHeader : String :=
  "# QuartzFire SSL Inspection — generated by qzssl. Do not edit by hand.\n" ++
  "# Squid is the SOLE TLS terminator on this box (owns ssl_bump, the CA,\n" ++
  "# the private key, and the generated-cert store). See design.md.\n\n"

def interceptPart (model : Model) : String :=
  "https_port " ++ toString model.interceptPort ++
    " intercept ssl-bump \\\n    name=qz_ssl_intercept \\\n" ++
    "    generate-host-certificates=on \\\n" ++
    "    dynamic_cert_mem_cache_size=8MB \\\n" ++
    "    tls-cert=/config/quartzfire/ssl-inspection/ca.crt \\\n" ++
    "    tls-key=/config/quartzfire/ssl-inspection/ca.key\n\n" ++
  "sslcrtd_program /usr/lib/squid/security_file_certgen" ++
    " -s /var/lib/squid/ssl_db -M 8MB\n" ++
  "sslcrtd_children 5\n\n" ++
  (if model.upstreamInvalid = "allow" then
    "# upstream-invalid allow: do not reject origins with bad certs.\n" ++
    "tls_outgoing_options flags=DONT_VERIFY_PEER\n\n"
  else
    "# upstream-invalid block (default): reject origins whose cert fails.\n" ++
    "tls_outgoing_options default-ca=on\n\n") ++
  "acl step1 at_step SslBump1\n" ++
  "acl noInspect ssl::server_name " ++
    "\"/config/quartzfire/ssl-inspection/no-inspect.txt\"\n\n" ++
  "acl qz_ssl_intercepted myportname qz_ssl_intercept\n" ++
  "http_access allow qz_ssl_intercepted\n\n" ++
  "ssl_bump peek step1\n" ++
  "ssl_bump splice noInspect\n" ++
  (if model.defaultAction = "splice" then
    "# default-action splice: only explicitly-selected traffic is bumped.\n" ++
    "ssl_bump splice all\n"
  else "ssl_bump bump all\n") ++
  "\n# SIEM: log every step so bump/splice decisions are auditable.\n" ++
  "logformat qzssl %ts.%03tu %>a %ssl::>sni %ssl::bump_mode %Ss/%03>Hs %<st " ++
    "%rm %ru\n" ++
  "access_log syslog:local4.info qzssl\n"

/-- The fragment, part by part. -/
def squidFragment (model : Model) : List Part :=
  .text fragmentHeader ::
  if !model.enabled then
    [.text "# SSL inspection is disabled — no interception configured.\n"]
  else
    [.text (interceptPart model),
      match model.contentFilter with
      | some filter => .icap filter
      | none => .text
          ("\n# No content-filter engine attached (ICAP seam idle). This is " ++
            "where a\n# future e2guardian/c-icap layer plugs in — see " ++
            "design.md.\n")]

theorem squidFragment_disabled {model : Model} (off : model.enabled = false) :
    squidFragment model = [.text fragmentHeader, .text
      "# SSL inspection is disabled — no interception configured.\n"] := by
  rw [squidFragment, off, Bool.not_false, if_pos rfl]

/-- The block is there exactly while inspection is on and has a filter. -/
theorem icap_mem_squidFragment {model : Model} {filter : ContentFilter} :
    .icap filter ∈ squidFragment model ↔
      model.enabled = true ∧ model.contentFilter = some filter := by
  cases on : model.enabled <;> cases attached : model.contentFilter <;>
    simp [squidFragment, on, attached, eq_comm]

/-! ## The steering rules -/

def namesPort (text : String) : Bool :=
  containsText "dport".toList text.toList

/-- An expression that has a destination port is taken as it is. -/
def steerText (expr : String) : String :=
  if namesPort expr then expr
  else if expr = "" then "tcp dport 443"
  else expr ++ " tcp dport 443"

def tlsPort : Statement :=
  ⟨.tcpDport, .one "443"⟩

def steerMatch (expr : Match) : Match :=
  if namesPort expr.text then expr else expr ++ [tlsPort]

/-- What is rendered of a match is what the text alone gives. -/
theorem text_steerMatch (expr : Match) :
    (steerMatch expr).text = steerText expr.text := by
  unfold steerMatch steerText
  by_cases named : namesPort expr.text = true
  · rw [if_pos named, if_pos named]
  · rw [if_neg named, if_neg named]
    by_cases empty : expr = []
    · rw [if_pos (text_eq_empty.mpr empty), empty]
      rfl
    · rw [if_neg fun same => empty (text_eq_empty.mp same)]
      unfold Match.text
      rw [List.map_append, String.intercalate_append_of_ne_nil
        (by simpa using empty) (by simp), String.append_assoc]
      rfl

inductive Verdict where
  | leave
  | redirect (port : Nat)
  deriving DecidableEq

def Verdict.text : Verdict → String
  | .leave => "return"
  | .redirect port => "redirect to :" ++ toString port

structure SteerRule where
  parts : Match
  verdict : Verdict
  deriving DecidableEq

def SteerRule.text (rule : SteerRule) : String :=
  rule.parts.text ++ " " ++ rule.verdict.text

/-- Matches by rule number; `none` for a rule that is not replicated. -/
abbrev Matches := List (Nat × Option Match)

/-- The match of an enabled policy with the given action. -/
def resolvedMatch (found : Matches) (action : String) (policy : Policy) :
    Option Match :=
  if !policy.enabled || policy.action ≠ action then none
  else (found.lookup policy.rule).join

def resolvedMatches (model : Model) (found : Matches) (action : String) :
    List Match :=
  model.policies.filterMap (resolvedMatch found action)

/-- The exceptions first, then what is inspected, in policy order. -/
def steering (model : Model) (found : Matches) : List SteerRule :=
  (resolvedMatches model found "splice").map
    (fun expr => ⟨steerMatch expr, .leave⟩) ++
  (resolvedMatches model found "inspect").map
    fun expr => ⟨steerMatch expr, .redirect model.interceptPort⟩

def tableReset : String :=
  "# QuartzFire SSL Inspection — qz_ssl table. Generated by qzssl.\n" ++
  "add table inet qz_ssl\n" ++
  "flush table inet qz_ssl\n"

/-- The `qz_ssl` table. -/
def nftRuleset (model : Model) (found : Matches) (caScope : List String) :
    String :=
  tableReset ++
  if !model.enabled then "delete table inet qz_ssl\n" else
  "table inet qz_ssl \x7b\n" ++
  "    chain prerouting \x7b\n" ++
  "        type nat hook prerouting priority dstnat; policy accept;\n" ++
  "        fib daddr type local return\n" ++
  String.join ((steering model found).map fun rule =>
    "        " ++ rule.text ++ "\n") ++
  "    \x7d\n" ++
  "    chain input \x7b\n" ++
  "        type filter hook input priority filter - 5; policy accept;\n" ++
  (if caScope = [] then "        tcp dport 4126 drop\n"
  else "        tcp dport 4126 iifname != \x7b " ++
    String.intercalate ", " (caScope.map fun name => "\"" ++ name ++ "\"") ++
    " \x7d drop\n") ++
  "    \x7d\n" ++
  "\x7d\n"

theorem nftRuleset_disabled {model : Model} (off : model.enabled = false)
    (found : Matches) (caScope : List String) :
    nftRuleset model found caScope =
      tableReset ++ "delete table inet qz_ssl\n" := by
  rw [nftRuleset, off, Bool.not_false, if_pos rfl]

end QuartzFire.SslInspection
