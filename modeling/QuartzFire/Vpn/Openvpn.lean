import QuartzFire.Editing.Overwriting

/-!
# OpenVPN interfaces

An OpenVPN interface runs in one of three modes, and most of its leaves belong
to one mode.  A save whose mode differs purges nodes of the old mode before it
writes the leaves of the new one.
-/

namespace QuartzFire.Openvpn

open ConfigTree Editing
open Firewall (Cfg Path VyosCommand trimmed childStr has)

inductive OpenvpnMode where
  | siteToSite
  | client
  | server
  deriving DecidableEq, Repr

def OpenvpnMode.text : OpenvpnMode → String
  | .siteToSite => "site-to-site"
  | .client => "client"
  | .server => "server"

/-- The command schema has no other modes. -/
def OpenvpnMode.ofText (text : String) : Option OpenvpnMode :=
  [siteToSite, client, server].find? (·.text = text)

structure OpenvpnInterface (Num : Type) where
  name : String
  mode : OpenvpnMode
  description : Option String
  device_type : Option String
  protocol : Option String
  local_host : Option String
  local_port : Option Num
  persistent_tunnel : Bool
  enabled : Bool
  encryption_cipher : Option String
  hash : Option String
  tls_ca_certificate : Option String
  tls_certificate : Option String
  tls_dh_params : Option String
  tls_role : Option String
  local_address : Option String
  remote_address : Option String
  shared_secret_key : Option String
  remote_host : Option String
  remote_port : Option Num
  auth_username : Option String
  auth_password : Option String
  server_subnet : Option String
  server_topology : Option String
  server_push_routes : List String
  server_name_servers : List String
  server_max_connections : Option Num
  openvpn_options : List String
  deriving DecidableEq, Repr

section Data

variable {Num : Type} (numerals : Numerals Num)

/-! ## Reading -/

/-- `childCfg(v, key) ?? {}`: here an array is no object. -/
def childObject (v : Cfg) (key : String) : Cfg :=
  match v.child key with
  | some (.node entries) => .node entries
  | _ => .node []

def asMulti (v : Cfg) (key : String) : List String := leafValues (v.child key)

def parseInterface (name : String) (raw : Cfg) : OpenvpnInterface Num :=
  let enc := childObject raw "encryption"
  let tls := childObject raw "tls"
  let server := childObject raw "server"
  let auth := childObject raw "authentication"
  { name := name
    mode := ((childStr raw "mode").bind OpenvpnMode.ofText).getD .siteToSite
    description := childStr raw "description"
    device_type := childStr raw "device-type"
    protocol := childStr raw "protocol"
    local_host := childStr raw "local-host"
    local_port := childNum numerals raw "local-port"
    persistent_tunnel := has raw "persistent-tunnel"
    enabled := !has raw "disable"
    encryption_cipher := childStr enc "cipher"
    hash := childStr raw "hash"
    tls_ca_certificate := childStr tls "ca-certificate"
    tls_certificate := childStr tls "certificate"
    tls_dh_params := childStr tls "dh-params"
    tls_role := childStr tls "role"
    local_address := childStr raw "local-address"
    remote_address := childStr raw "remote-address"
    shared_secret_key := childStr raw "shared-secret-key"
    remote_host := childStr raw "remote-host"
    remote_port := childNum numerals raw "remote-port"
    auth_username := childStr auth "username"
    auth_password := childStr auth "password"
    server_subnet := childStr server "subnet"
    server_topology := childStr server "topology"
    server_push_routes := sorted (asMulti server "push-route")
    server_name_servers := sorted (asMulti server "name-server")
    server_max_connections := childNum numerals server "max-connections"
    openvpn_options := asMulti raw "openvpn-option" }

def openvpnBase (name : String) : Path := ["interfaces", "openvpn", name]

/-- All configured OpenVPN interfaces, by name. -/
def fetchOpenvpn (locale : Firewall.Locale) (root : Cfg) :
    List (OpenvpnInterface Num) :=
  locale.sortBy OpenvpnInterface.name
    ((objectEntries (slice ["interfaces", "openvpn"] root)).map
      fun (name, raw) => parseInterface numerals name raw)

/-! ## Writing -/

/-- `MODE_NODES` -/
def OpenvpnMode.nodes : OpenvpnMode → List String
  | .siteToSite => ["local-address", "remote-address", "shared-secret-key"]
  | .client => ["remote-host", "remote-port", "authentication"]
  | .server => ["server"]

variable (live : Option (OpenvpnInterface Num)) (u : OpenvpnInterface Num)

/-- A change of the mode purges the previous mode's nodes. -/
def purge : List VyosCommand :=
  match live with
  | some row =>
      if row.mode ≠ u.mode then
        row.mode.nodes.map (fun node => .delete [node]) ++
          if row.mode = .siteToSite ∧ row.tls_role.any (· ≠ "") then
            [.delete ["tls", "role"]]
          else []
      else []
  | none => []

def modePush : Push Num :=
  .leaf ["mode"] (live.map fun row => row.mode.text) (some u.mode.text)

def commonPushes : List (Push Num) :=
  [.leaf ["description"] (live.bind (·.description)) u.description,
    .leaf ["device-type"] (live.bind (·.device_type)) u.device_type,
    .leaf ["protocol"] (live.bind (·.protocol)) u.protocol,
    .leaf ["local-host"] (live.bind (·.local_host)) u.local_host,
    .number ["local-port"] (live.bind (·.local_port)) u.local_port,
    .flag ["persistent-tunnel"] ((live.map (·.persistent_tunnel)).getD false)
      u.persistent_tunnel,
    .flag ["disable"] (!(live.map (·.enabled)).getD true) (!u.enabled),
    .leaf ["encryption", "cipher"] (live.bind (·.encryption_cipher))
      u.encryption_cipher,
    .leaf ["hash"] (live.bind (·.hash)) u.hash,
    .leaf ["tls", "ca-certificate"] (live.bind (·.tls_ca_certificate))
      u.tls_ca_certificate,
    .leaf ["tls", "certificate"] (live.bind (·.tls_certificate))
      u.tls_certificate,
    .leaf ["tls", "dh-params"] (live.bind (·.tls_dh_params)) u.tls_dh_params]

/-- The leaves of the mode; a row of another mode is read as having none. -/
def modePushes : List (Push Num) :=
  let live := live.filter (·.mode = u.mode)
  match u.mode with
  | .siteToSite =>
      [.leaf ["local-address"] (live.bind (·.local_address)) u.local_address,
        .leaf ["remote-address"] (live.bind (·.remote_address))
          u.remote_address,
        .leaf ["remote-host"] (live.bind (·.remote_host)) u.remote_host,
        .leaf ["shared-secret-key"] (live.bind (·.shared_secret_key))
          u.shared_secret_key,
        .leaf ["tls", "role"] (live.bind (·.tls_role)) u.tls_role]
  | .client =>
      [.leaf ["remote-host"] (live.bind (·.remote_host)) u.remote_host,
        .number ["remote-port"] (live.bind (·.remote_port)) u.remote_port,
        .leaf ["authentication", "username"] (live.bind (·.auth_username))
          u.auth_username,
        .leaf ["authentication", "password"] (live.bind (·.auth_password))
          u.auth_password]
  | .server =>
      [.leaf ["server", "subnet"] (live.bind (·.server_subnet))
          u.server_subnet,
        .leaf ["server", "topology"] (live.bind (·.server_topology))
          u.server_topology,
        .number ["server", "max-connections"]
          (live.bind (·.server_max_connections)) u.server_max_connections,
        .values ["server", "push-route"]
          ((live.map (·.server_push_routes)).getD []) u.server_push_routes,
        .values ["server", "name-server"]
          ((live.map (·.server_name_servers)).getD []) u.server_name_servers]

def optionPush : Push Num :=
  .values ["openvpn-option"] ((live.map (·.openvpn_options)).getD [])
    u.openvpn_options

/-- What a save pushes, below the interface. -/
def openvpnPushes : List (Push Num) :=
  modePush live u :: (commonPushes live u ++ modePushes live u ++
    [optionPush live u])

def diffOpenvpn : List VyosCommand :=
  (created live.isSome (purge live u ++
    laid ((openvpnPushes live u).map (Push.block numerals)))).map
      (Command.under (openvpnBase u.name))

end Data

end QuartzFire.Openvpn
