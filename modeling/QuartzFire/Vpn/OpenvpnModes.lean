import QuartzFire.Foundation.ConfigCheck
import QuartzFire.Foundation.Keyed
import QuartzFire.Vpn.Openvpn

/-!
# Switching the mode of an OpenVPN interface

After a save every field is as asked for, apart from what neither the purge
nor the leaves of the new mode cover.
-/

namespace QuartzFire.Openvpn

open ConfigTree Editing
open Firewall (Cfg Path VyosCommand trimmed childStr has)

variable {Num : Type} {numerals : Numerals Num}

/-- Where a mode has its leaves. -/
def OpenvpnMode.paths : OpenvpnMode → List Path
  | .siteToSite => [["local-address"], ["remote-address"], ["remote-host"],
      ["shared-secret-key"], ["tls", "role"]]
  | .client => [["remote-host"], ["remote-port"],
      ["authentication", "username"], ["authentication", "password"]]
  | .server => [["server", "subnet"], ["server", "topology"],
      ["server", "max-connections"], ["server", "push-route"],
      ["server", "name-server"]]

/-- The fields that belong to some mode. -/
def modeFields (live : Option (OpenvpnInterface Num))
    (u : OpenvpnInterface Num) : List (Push Num) :=
  [.leaf ["local-address"] (live.bind (·.local_address)) u.local_address,
    .leaf ["remote-address"] (live.bind (·.remote_address)) u.remote_address,
    .leaf ["remote-host"] (live.bind (·.remote_host)) u.remote_host,
    .leaf ["shared-secret-key"] (live.bind (·.shared_secret_key))
      u.shared_secret_key,
    .leaf ["tls", "role"] (live.bind (·.tls_role)) u.tls_role,
    .number ["remote-port"] (live.bind (·.remote_port)) u.remote_port,
    .leaf ["authentication", "username"] (live.bind (·.auth_username))
      u.auth_username,
    .leaf ["authentication", "password"] (live.bind (·.auth_password))
      u.auth_password,
    .leaf ["server", "subnet"] (live.bind (·.server_subnet)) u.server_subnet,
    .leaf ["server", "topology"] (live.bind (·.server_topology))
      u.server_topology,
    .number ["server", "max-connections"]
      (live.bind (·.server_max_connections)) u.server_max_connections,
    .values ["server", "push-route"]
      ((live.map (·.server_push_routes)).getD []) u.server_push_routes,
    .values ["server", "name-server"]
      ((live.map (·.server_name_servers)).getD []) u.server_name_servers]

/-- All fields apart from the mode. -/
def allFields (live : Option (OpenvpnInterface Num))
    (u : OpenvpnInterface Num) : List (Push Num) :=
  commonPushes live u ++ modeFields live u ++ [optionPush live u]

/-- The leaves of an interface. -/
def openvpnShape : List (Path × Kind) :=
  [(["description"], .single), (["device-type"], .single),
    (["protocol"], .single), (["local-host"], .single),
    (["local-port"], .single), (["persistent-tunnel"], .valueless),
    (["disable"], .valueless), (["encryption", "cipher"], .single),
    (["hash"], .single), (["tls", "ca-certificate"], .single),
    (["tls", "certificate"], .single), (["tls", "dh-params"], .single),
    (["local-address"], .single), (["remote-address"], .single),
    (["remote-host"], .single), (["shared-secret-key"], .single),
    (["tls", "role"], .single), (["remote-port"], .single),
    (["authentication", "username"], .single),
    (["authentication", "password"], .single),
    (["server", "subnet"], .single), (["server", "topology"], .single),
    (["server", "max-connections"], .single),
    (["server", "push-route"], .multi), (["server", "name-server"], .multi),
    (["openvpn-option"], .multi)]

theorem shape_allFields (live : Option (OpenvpnInterface Num))
    (u : OpenvpnInterface Num) :
    shapeOf (allFields live u) = openvpnShape := rfl

theorem blank_allFields (live : Option (OpenvpnInterface Num))
    (u : OpenvpnInterface Num) :
    (allFields live u).map Push.blank = allFields none u := rfl

theorem modePushes_eq (live : Option (OpenvpnInterface Num))
    (u : OpenvpnInterface Num) :
    modePushes live u = (modeFields (live.filter (·.mode = u.mode)) u).filter
      (·.path ∈ u.mode.paths) := by
  unfold modePushes
  cases u.mode <;> rfl

/-! ## Reading -/

theorem subtree_childObject (cfg : Cfg) (name key : String) (path : Path) :
    subtree (key :: path) (childObject cfg name) =
      subtree (name :: key :: path) cfg := by
  rw [subtree, childObject]
  conv => rhs; rw [subtree]
  cases cfg.child name with
  | none => rfl
  | some leaf => cases leaf <;> rfl

theorem asMulti_eq (cfg : Cfg) (key : String) :
    asMulti cfg key = leafValues (subtree [key] cfg) := by
  rw [asMulti, subtree_singleton]

/-- Each field of a row is what is read at its path. -/
theorem allFields_live (name : String) (raw : Cfg)
    (u : OpenvpnInterface Num) :
    ∀ push ∈ allFields (some (parseInterface numerals name raw)) u,
      push.Live numerals raw := by
  simp only [allFields, commonPushes, modeFields, optionPush,
    List.cons_append, List.nil_append, List.forall_mem_cons, List.not_mem_nil,
    IsEmpty.forall_iff, implies_true, Push.Live, Option.bind_some,
    Option.map_some, Option.getD_some, parseInterface, childStr_eq,
    childNum_eq, has_eq, subtree_childObject, asMulti_eq, mem_sorted,
    Bool.not_not, and_self]

/-- What the code relies on of the command schema. -/
structure OpenvpnSchema (kinds : Kinds String) : Prop where
  interfaces : ∀ name, NodePath kinds (openvpnBase name)
  body : ∀ name, Shaped (kinds.below (openvpnBase name))
    ((["mode"], .single) :: openvpnShape)

/-- OpenVPN interfaces as a device renders them. -/
structure Rendered (kinds : Kinds String) (root : Cfg) : Prop where
  conforms : Conforms kinds root
  modes : ∀ name text,
    subtree (openvpnBase name ++ ["mode"]) root = some (.value text) →
      ∃ mode : OpenvpnMode, text = mode.text

variable (numerals) in
/-- The row of a name, if the interface is there. -/
def readInterface (root : Cfg) (name : String) :
    Option (OpenvpnInterface Num) :=
  (subtree (openvpnBase name) root).map (parseInterface numerals name)

/-- The fields of other modes are null or empty, and the numbers are whole. -/
structure Submitted (numerals : Numerals Num) (u : OpenvpnInterface Num) :
    Prop where
  own : ∀ push ∈ modeFields none u, push.path ∉ u.mode.paths → push.Empty
  whole : ∀ push ∈ allFields none u, push.Whole numerals

/-! ## The purge -/

/-- The leaves of a mode that go with a purge: all but the remote host of
site-to-site. -/
def OpenvpnMode.purged : OpenvpnMode → List Path
  | .siteToSite => [["local-address"], ["remote-address"],
      ["shared-secret-key"], ["tls", "role"]]
  | .client => OpenvpnMode.client.paths
  | .server => OpenvpnMode.server.paths

/-- The leaves that a save brings to what is asked for, whatever they hold. -/
def settled (row u : OpenvpnInterface Num) : List Path :=
  if row.mode = u.mode then u.mode.paths else row.mode.purged

/-- What a save leaves of an interface is replaced by what is asked for. -/
def Covered (live : Option (OpenvpnInterface Num))
    (u : OpenvpnInterface Num) : Prop :=
  ∀ row, live = some row → ∀ push ∈ modeFields (some row) u,
    push.path ∉ settled row u → push.Overwrites

section Purging

variable {kinds : Kinds String} {row u : OpenvpnInterface Num} {raw : Cfg}

theorem purge_same (same : row.mode = u.mode) : purge (some row) u = [] := by
  simp [purge, same]

theorem spares_purge {probe : Path}
    (nodes : ∀ node ∈ row.mode.nodes, Diverges [node] probe)
    (role : row.mode = .siteToSite → Diverges ["tls", "role"] probe) :
    Spares probe (purge (some row) u) := by
  unfold purge
  refine .ite (fun _ => .append (.map nodes) ?_) fun _ => .nil
  exact .ite (fun site => .single (role site.1)) fun _ => .nil

theorem purge_diverges (mode : OpenvpnMode) :
    ∀ path ∈ openvpnShape.map Prod.fst, path ∉ mode.purged →
      (∀ node ∈ mode.nodes, Diverges [node] path) ∧
        (mode = .siteToSite → Diverges ["tls", "role"] path) := by
  cases mode <;> decide

theorem purged_leads (mode : OpenvpnMode) :
    ∀ path ∈ mode.purged, path ≠ ["tls", "role"] →
      ∃ node ∈ mode.nodes, [node] <+: path := by
  cases mode <;> decide

/-- The purge spares every field it does not cover. -/
theorem spares_purge_of_mem {path : Path}
    (field : path ∈ openvpnShape.map Prod.fst)
    (spared : row.mode ≠ u.mode → path ∉ row.mode.purged) :
    Spares path (purge (some row) u) := by
  by_cases same : row.mode = u.mode
  · rw [purge_same same]
    exact .nil
  · have apart := purge_diverges row.mode path field (spared same)
    exact spares_purge apart.1 apart.2

theorem purge_deletes (live : Option (OpenvpnInterface Num))
    (u : OpenvpnInterface Num) :
    ∀ command ∈ purge live u, ∃ path, path ≠ [] ∧ command = .delete path := by
  intro command member
  unfold purge at member
  split at member
  · split at member
    · rcases List.mem_append.mp member with nodes | role
      · obtain ⟨node, _, rfl⟩ := List.mem_map.mp nodes
        exact ⟨[node], by simp, rfl⟩
      · split at role
        · rw [List.mem_singleton.mp role]
          exact ⟨["tls", "role"], by simp, rfl⟩
        · cases role
    · cases member
  · cases member

/-- What the purge deletes is gone. -/
theorem subtree_purged {probe path : Path} (proper : path ≠ [])
    (leads : path <+: probe) (member : .delete path ∈ purge (some row) u) :
    subtree probe (executeAll kinds (purge (some row) u) raw) = none := by
  have wanes : Wanes probe (purge (some row) u) := by
    intro command inside
    obtain ⟨path, _, rfl⟩ := purge_deletes _ _ command inside
    exact .inr ⟨path, rfl⟩
  exact wanes.gone proper leads member

/-- Nothing is read where the purge was. -/
theorem blank_live_of_purged (live : ∀ push ∈ modeFields (some row) u,
      push.Live numerals raw)
    (changed : row.mode ≠ u.mode) {push : Push Num}
    (member : push ∈ modeFields (some row) u)
    (purged : push.path ∈ row.mode.purged) :
    push.blank.Live numerals (executeAll kinds (purge (some row) u) raw) := by
  by_cases role : push.path = ["tls", "role"]
  · have site : row.mode = .siteToSite := by
      rw [role] at purged
      revert purged
      cases row.mode <;> decide
    by_cases shown : row.tls_role.any (· ≠ "") = true
    · refine Push.blank_live_of_absent (subtree_purged
        (List.cons_ne_nil "tls" ["role"]) ?_ ?_)
      · rw [role]
      · rw [purge, if_pos changed, if_pos ⟨site, shown⟩]
        exact List.mem_append_right _ (List.mem_singleton_self _)
    · have same : push = .leaf ["tls", "role"] row.tls_role u.tls_role := by
        simp only [modeFields, List.mem_cons, List.not_mem_nil, or_false]
          at member
        rcases member with rfl | rfl | rfl | rfl | rfl | rfl | rfl | rfl |
          rfl | rfl | rfl | rfl | rfl <;> simp_all [Push.path]
      have read : row.tls_role = textAt (subtree ["tls", "role"] raw) := by
        have live := live push member
        rw [same] at live
        exact live
      have none' : row.tls_role = none := by
        cases given : row.tls_role with
        | none => rfl
        | some text =>
            rw [given, Option.any_some, decide_eq_true_eq, not_not] at shown
            rw [given, shown] at read
            exact absurd read.symm (textAt_ne_blank _)
      have spared : Spares ["tls", "role"] (purge (some row) u) := by
        rw [purge, if_pos changed, if_neg fun both => shown both.2,
          List.append_nil, site]
        exact .map (by decide)
      rw [same, none']
      show none = textAt _
      rw [spared.subtree_eq, ← read, none']
  · obtain ⟨node, inside, leads⟩ := purged_leads _ _ purged role
    refine Push.blank_live_of_absent
      (subtree_purged (List.cons_ne_nil node []) leads ?_)
    rw [purge, if_pos changed]
    exact List.mem_append_left _ (List.mem_map_of_mem inside)

end Purging

/-! ## The save -/

section Saving

variable {kinds : Kinds String} {live : Option (OpenvpnInterface Num)}
  {u : OpenvpnInterface Num} {raw : Cfg}

theorem paths_openvpnPushes (live : Option (OpenvpnInterface Num))
    (u : OpenvpnInterface Num) :
    (openvpnPushes live u).map Push.path = ["mode"] ::
      ((commonPushes live u).map Push.path ++ u.mode.paths ++
        [["openvpn-option"]]) := by
  unfold openvpnPushes modePushes
  cases u.mode <;> rfl

theorem openvpnPushes_separate (live : Option (OpenvpnInterface Num))
    (u : OpenvpnInterface Num) :
    Separate ((openvpnPushes live u).map (Push.block numerals)) := by
  refine separate_pushes numerals ?_
  rw [paths_openvpnPushes]
  cases u.mode <;> exact of_decide_eq_true rfl

/-- A mode writes apart from the leaves of the others. -/
theorem paths_diverge (u : OpenvpnInterface Num) :
    ∀ path ∈ (modeFields none u).map Push.path, path ∉ u.mode.paths →
      ∀ other ∈ (openvpnPushes live u).map Push.path, Diverges other path := by
  rw [paths_openvpnPushes]
  show ∀ path ∈ [["local-address"], ["remote-address"], ["remote-host"],
    ["shared-secret-key"], ["tls", "role"], ["remote-port"],
    ["authentication", "username"], ["authentication", "password"],
    ["server", "subnet"], ["server", "topology"],
    ["server", "max-connections"], ["server", "push-route"],
    ["server", "name-server"]], _
  cases u.mode <;> exact of_decide_eq_true rfl

/-- What the blocks of a save leave alone. -/
theorem spares_pushes {path : Path}
    (diverge : ∀ other ∈ (openvpnPushes live u).map Push.path,
      Diverges other path) :
    Spares path (laid ((openvpnPushes live u).map (Push.block numerals))) := by
  refine spares_laid (openvpnPushes_separate live u).each ?_
  rwa [written_pushes]

theorem fits_of_mem (shaped : Shaped kinds openvpnShape) {push : Push Num}
    (member : push ∈ allFields live u) : push.Fits kinds := by
  have listed : (push.path, push.kind) ∈ openvpnShape := by
    rw [← shape_allFields live u]
    exact List.mem_map_of_mem member
  refine Push.fits_of_kind (shaped _ listed) fun isNode => ?_
  rw [isNode] at listed
  exact absurd listed (by
    have leaves : ∀ field ∈ openvpnShape, field.2 ≠ .node := by decide
    exact fun inside => leaves _ inside rfl)

theorem path_of_mem {push : Push Num} (member : push ∈ allFields live u) :
    push.path ∈ openvpnShape.map Prod.fst := by
  rw [← shape_allFields live u, List.map_map]
  exact List.mem_map_of_mem member

theorem blank_mem_modeFields {push : Push Num}
    (member : push ∈ modeFields live u) : push.blank ∈ modeFields none u := by
  have same : (modeFields live u).map Push.blank = modeFields none u := rfl
  rw [← same]
  exact List.mem_map_of_mem member

theorem mem_allFields_of_mode {push : Push Num}
    (member : push ∈ modeFields live u) : push ∈ allFields live u :=
  List.mem_append_left _ (List.mem_append_right _ member)

/-- A field that every mode has. -/
theorem commonField_done (shaped : Shaped kinds openvpnShape)
    (conforms : Conforms kinds raw)
    (reads : ∀ push ∈ allFields live u, push.Live numerals raw)
    {push : Push Num}
    (member : push ∈ commonPushes live u ++ [optionPush live u]) :
    push.Done numerals (executeAll kinds (purge live u ++
      laid ((openvpnPushes live u).map (Push.block numerals))) raw) := by
  have listed : push ∈ allFields live u := by
    rcases List.mem_append.mp member with common | option
    · exact List.mem_append_left _ (List.mem_append_left _ common)
    · exact List.mem_append_right _ option
  have pushed : push ∈ openvpnPushes live u := by
    refine List.mem_cons_of_mem _ ?_
    rcases List.mem_append.mp member with common | option
    · exact List.mem_append_left _ (List.mem_append_left _ common)
    · exact List.mem_append_right _ option
  rw [executeAll_append]
  refine Push.done numerals (openvpnPushes_separate live u)
    (List.mem_map_of_mem pushed) (fits_of_mem shaped listed)
    conforms.executeAll ?_
  cases live with
  | none => exact reads push listed
  | some row =>
      refine (Push.live_congr (Spares.subtree_eq
        (spares_purge_of_mem (path_of_mem listed) fun _ => ?_) raw)).mpr
          (reads push listed)
      have paths : ∀ mode : OpenvpnMode,
          ∀ path ∈ (commonPushes (some row) u ++
            [optionPush (some row) u]).map Push.path, path ∉ mode.purged := by
        intro mode
        cases mode <;> exact of_decide_eq_true rfl
      exact paths _ _ (List.mem_map_of_mem member)

/-- A field of some mode is as asked for if the save settles it, or replaces
what it holds. -/
theorem modeField_done_iff (shaped : Shaped kinds openvpnShape)
    (conforms : Conforms kinds raw) {row : OpenvpnInterface Num}
    (reads : ∀ push ∈ allFields (some row) u, push.Live numerals raw)
    (submitted : Submitted numerals u) {push : Push Num}
    (member : push ∈ modeFields (some row) u) :
    push.Done numerals (executeAll kinds (purge (some row) u ++
        laid ((openvpnPushes (some row) u).map (Push.block numerals))) raw) ↔
      (push.path ∉ settled row u → push.Overwrites) := by
  have listed := mem_allFields_of_mode member
  have fits := fits_of_mem shaped listed
  have whole : push.Whole numerals := by
    rw [← Push.whole_blank]
    exact submitted.whole _ (mem_allFields_of_mode (blank_mem_modeFields member))
  have separate := @openvpnPushes_separate _ numerals (some row) u
  have empty : push.path ∉ u.mode.paths → push.Empty := by
    intro foreign
    rw [← Push.empty_blank]
    exact submitted.own _ (blank_mem_modeFields member)
      (by rwa [Push.path_blank])
  have spared : push.path ∉ u.mode.paths → Spares push.path (laid
      ((openvpnPushes (some row) u).map (Push.block numerals))) := by
    intro foreign
    refine spares_pushes (paths_diverge u _ ?_ foreign)
    rw [← Push.path_blank]
    exact List.mem_map_of_mem (blank_mem_modeFields member)
  rw [executeAll_append]
  have after : Conforms kinds (executeAll kinds (purge (some row) u) raw) :=
    conforms.executeAll
  have pushed : ∀ other ∈ modePushes (some row) u,
      other.block numerals ∈
        (openvpnPushes (some row) u).map (Push.block numerals) := by
    intro other inside
    refine List.mem_map_of_mem (List.mem_cons_of_mem _ ?_)
    exact List.mem_append_left _ (List.mem_append_right _ inside)
  rw [modePushes_eq] at pushed
  by_cases same : row.mode = u.mode
  · -- The leaves of the mode are compared with what is there.
    have untouched := reads push listed
    rw [purge_same same, settled, if_pos same]
    rw [Option.filter_some, if_pos (decide_eq_true same)] at pushed
    by_cases own : push.path ∈ u.mode.paths
    · refine iff_of_true ?_ fun foreign => absurd own foreign
      refine Push.done numerals separate (pushed push ?_) fits conforms
        untouched
      exact List.mem_filter.mpr ⟨member, decide_eq_true own⟩
    · rw [forall_prop_of_true own]
      exact Push.done_iff_of_spared untouched (empty own) (spared own)
  · rw [settled, if_neg same]
    rw [Option.filter_some, if_neg (by simpa using same)] at pushed
    have blank : push.path ∈ u.mode.paths → push.blank.block numerals ∈
        (openvpnPushes (some row) u).map (Push.block numerals) := by
      intro own
      refine pushed _ (List.mem_filter.mpr ⟨blank_mem_modeFields member, ?_⟩)
      rw [Push.path_blank]
      exact decide_eq_true own
    by_cases purged : push.path ∈ row.mode.purged
    · -- Nothing is there any more, and the leaves are set anew.
      have gone := @blank_live_of_purged _ _ kinds _ _ _ (fun other inside =>
        reads other (mem_allFields_of_mode inside)) same _ member purged
      refine iff_of_true ?_ fun foreign => absurd purged foreign
      rw [← Push.done_blank]
      by_cases own : push.path ∈ u.mode.paths
      · refine Push.done numerals separate (blank own) ?_ after gone
        exact fits_of_mem shaped
          (mem_allFields_of_mode (blank_mem_modeFields member))
      · refine (Push.done_iff_of_spared gone
          (Push.empty_blank.mpr (empty own)) ?_).mpr (Push.overwrites_blank _)
        rw [Push.path_blank]
        exact spared own
    · rw [forall_prop_of_true purged]
      have untouched : push.Live numerals
          (executeAll kinds (purge (some row) u) raw) :=
        (Push.live_congr (Spares.subtree_eq (spares_purge_of_mem
          (path_of_mem listed) fun _ => purged) raw)).mpr (reads push listed)
      by_cases own : push.path ∈ u.mode.paths
      · exact Push.blank_done_iff separate (blank own) fits after untouched
          whole
      · exact Push.done_iff_of_spared untouched (empty own) (spared own)

end Saving

end QuartzFire.Openvpn
