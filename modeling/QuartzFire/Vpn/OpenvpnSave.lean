import QuartzFire.Vpn.OpenvpnModes

/-!
# Saving an OpenVPN interface

When the row that is read after a save is the one that was asked for, and when
a row that is saved as it is leaves the configuration alone.
-/

namespace QuartzFire.Openvpn

open ConfigTree Editing
open Firewall (Cfg Path VyosCommand trimmed childStr has)

variable {Num : Type} {numerals : Numerals Num} {kinds : Kinds String}
  {root raw : Cfg} {u : OpenvpnInterface Num}

/-! ## The fields -/

/-- Nothing is read where there is no interface. -/
theorem reads_none (u : OpenvpnInterface Num) :
    ∀ push ∈ allFields none u, push.Live numerals (.node []) := by
  rw [← blank_allFields none u]
  intro push member
  obtain ⟨other, inside, rfl⟩ := List.mem_map.mp member
  refine Push.blank_live_of_absent (subtree_of_leaf rfl ?_)
  have proper : ∀ path ∈ openvpnShape.map Prod.fst, path ≠ [] := by decide
  exact proper _ (path_of_mem inside)

theorem newField_done (shaped : Shaped kinds openvpnShape)
    (submitted : Submitted numerals u) {push : Push Num}
    (member : push ∈ modeFields none u) :
    push.Done numerals (executeAll kinds (purge none u ++
      laid ((openvpnPushes none u).map (Push.block numerals)))
      (.node [])) := by
  have listed := mem_allFields_of_mode member
  have reads := @reads_none _ numerals u push listed
  have separate := @openvpnPushes_separate _ numerals none u
  rw [show purge none u = [] from rfl, List.nil_append]
  by_cases own : push.path ∈ u.mode.paths
  · refine Push.done numerals separate (List.mem_map_of_mem ?_)
      (fits_of_mem shaped listed) .empty reads
    refine List.mem_cons_of_mem _ (List.mem_append_left _
      (List.mem_append_right _ ?_))
    rw [modePushes_eq]
    exact List.mem_filter.mpr ⟨member, decide_eq_true own⟩
  · have spared := @spares_pushes _ numerals none u push.path
      (paths_diverge u _ (List.mem_map_of_mem member) own)
    rw [Push.done_iff_of_spared reads (submitted.own push member own) spared]
    have same : (modeFields none u).map Push.blank = modeFields none u := rfl
    rw [← same] at member
    obtain ⟨other, _, rfl⟩ := List.mem_map.mp member
    exact Push.overwrites_blank other

/-- The fields of an interface that is there after a save. -/
theorem fields_done_iff (shaped : Shaped kinds openvpnShape)
    (submitted : Submitted numerals u) {name : String}
    {live : Option (OpenvpnInterface Num)} (conforms : Conforms kinds raw)
    (reads : live = some (parseInterface numerals name raw) ∨
      live = none ∧ raw = .node []) :
    (∀ push ∈ allFields none u, push.Done numerals (executeAll kinds
        (purge live u ++ laid ((openvpnPushes live u).map
          (Push.block numerals))) raw)) ↔ Covered live u := by
  rcases reads with rfl | ⟨rfl, rfl⟩
  · have reads := @allFields_live _ numerals name raw u
    generalize parseInterface numerals name raw = row at reads ⊢
    have blanks : (allFields none u).map Push.blank =
        (allFields (some row) u).map Push.blank := rfl
    rw [Push.forall_done_congr blanks]
    constructor
    · rintro done _ ⟨⟩ push member
      exact (modeField_done_iff shaped conforms reads submitted member).mp
        (done push (mem_allFields_of_mode member))
    · intro covered push member
      rw [allFields, List.mem_append, List.mem_append] at member
      rcases member with (common | mode) | option
      · exact commonField_done shaped conforms reads
          (List.mem_append_left _ common)
      · exact (modeField_done_iff shaped conforms reads submitted mode).mpr
          (covered row rfl push mode)
      · exact commonField_done shaped conforms reads
          (List.mem_append_right _ option)
  · refine iff_of_true (fun push member => ?_) (fun _ none => by cases none)
    have listed := member
    rw [allFields, List.mem_append, List.mem_append] at member
    rcases member with (common | mode) | option
    · exact commonField_done shaped conforms (reads_none u)
        (List.mem_append_left _ common)
    · exact newField_done shaped submitted mode
    · exact commonField_done shaped conforms (reads_none u)
        (List.mem_append_right _ option)

/-! ## The mode -/

theorem ofText_text (mode : OpenvpnMode) :
    OpenvpnMode.ofText mode.text = some mode := by
  cases mode <;> decide

theorem trimmed_text (mode : OpenvpnMode) :
    trimmed mode.text = some mode.text := by
  cases mode <;> decide

theorem text_injective {mode other : OpenvpnMode}
    (same : mode.text = other.text) : mode = other := by
  have read := congrArg OpenvpnMode.ofText same
  rwa [ofText_text, ofText_text, Option.some.injEq] at read

theorem mode_parseInterface (name : String) (raw : Cfg) :
    (parseInterface numerals name raw).mode =
      ((textAt (subtree ["mode"] raw)).bind OpenvpnMode.ofText).getD
        .siteToSite := by
  rw [← childStr_eq]
  rfl

/-- The mode is the one that was asked for. -/
theorem mode_saved (field : FieldAt kinds ["mode"] .single) {name : String}
    {live : Option (OpenvpnInterface Num)} (conforms : Conforms kinds raw)
    (reads : live = some (parseInterface numerals name raw) ∨ live = none) :
    (parseInterface numerals name (executeAll kinds (purge live u ++
      laid ((openvpnPushes live u).map (Push.block numerals))) raw)).mode =
        u.mode := by
  have made : ∀ mark, Yields kinds ["mode"]
      (subtree ["mode"] (executeAll kinds (purge live u) raw)) mark
        ((modePush live u).commands numerals) →
      mark (subtree ["mode"] (executeAll kinds (purge live u ++
        laid ((openvpnPushes live u).map (Push.block numerals))) raw)) := by
    intro mark yields
    rw [executeAll_append]
    exact yields.within_blocks (openvpnPushes_separate live u)
      List.mem_cons_self (List.mem_singleton_self _) (List.prefix_refl _)
      conforms.executeAll
  have wants : (some u.mode.text).bind trimmed = some u.mode.text := by
    rw [Option.bind_some, trimmed_text]
  have written : ∀ shown, live.map (fun row => row.mode.text) = shown →
      shown ≠ some u.mode.text →
      textAt (subtree ["mode"] (executeAll kinds (purge live u ++
        laid ((openvpnPushes live u).map (Push.block numerals))) raw)) =
          some u.mode.text := by
    rintro _ rfl differs
    refine made (textAt · = some u.mode.text) ?_
    rw [modePush, Push.commands, leaf_set wants differs]
    exact write_yields field (trimmed_text u.mode)
  have read : ∀ tree : Cfg, textAt (subtree ["mode"] tree) =
      some u.mode.text → (parseInterface numerals name tree).mode =
        u.mode := by
    intro tree shown
    rw [mode_parseInterface, shown, Option.bind_some, ofText_text,
      Option.getD_some]
  rcases reads with rfl | rfl
  · by_cases same : (parseInterface numerals name raw).mode = u.mode
    · rw [← same]
      have kept := made (· = subtree ["mode"] raw) (by
        rw [purge_same same, modePush, Push.commands, Option.map_some, same,
          leaf_same wants]
        exact .nil rfl)
      rw [mode_parseInterface, mode_parseInterface, kept]
    · refine read _ (written _ rfl fun equal => same ?_)
      exact text_injective (Option.some.inj equal)
  · exact read _ (written _ rfl (by simp))

/-! ## The rows -/

section Rows

variable {locale : Firewall.Locale}

theorem conforms_interfaces (schema : OpenvpnSchema kinds)
    (conforms : Conforms kinds root) :
    Conforms (kinds.below ["interfaces", "openvpn"])
      (slice ["interfaces", "openvpn"] root) := by
  obtain ⟨interfaces, openvpn, _⟩ := schema.interfaces ""
  exact conforms.slice ⟨interfaces, openvpn, trivial⟩

theorem mem_fetchOpenvpn (schema : OpenvpnSchema kinds)
    (conforms : Conforms kinds root) (row : OpenvpnInterface Num) :
    row ∈ fetchOpenvpn numerals locale root ↔
      readInterface numerals root row.name = some row := by
  have listed := conforms_interfaces schema conforms
  have child : ∀ name, (slice ["interfaces", "openvpn"] root).child name =
      subtree (openvpnBase name) root := fun name =>
    isSome_slice_child _ _ _
  rw [fetchOpenvpn, Firewall.Locale.sortBy, (List.perm_insertionSort _ _).mem_iff,
    List.mem_map]
  constructor
  · rintro ⟨⟨name, raw⟩, member, rfl⟩
    have found := (mem_objectEntries listed).mp member
    rw [child] at found
    show readInterface numerals root name = _
    rw [readInterface, found, Option.map_some]
  · intro shown
    obtain ⟨raw, found, same⟩ := Option.map_eq_some_iff.mp shown
    refine ⟨(row.name, raw), (mem_objectEntries listed).mpr ?_, same⟩
    rw [child, found]

theorem nodup_fetchOpenvpn (schema : OpenvpnSchema kinds)
    (conforms : Conforms kinds root) :
    ((fetchOpenvpn numerals locale root).map
      OpenvpnInterface.name).Nodup := by
  have listed := conforms_interfaces schema conforms
  rw [fetchOpenvpn, Firewall.Locale.sortBy,
    ((List.perm_insertionSort _ _).map _).nodup_iff, List.map_map,
    listed.isNode]
  exact listed.distinct

theorem find_fetchOpenvpn (schema : OpenvpnSchema kinds)
    (conforms : Conforms kinds root) (name : String) :
    (fetchOpenvpn numerals locale root).find? (·.name = name) =
      readInterface numerals root name := by
  cases shown : readInterface numerals root name with
  | none =>
      rw [List.find?_eq_none]
      intro row member
      rw [decide_eq_true_eq]
      rintro rfl
      rw [(mem_fetchOpenvpn schema conforms row).mp member] at shown
      cases shown
  | some row =>
      obtain ⟨raw, _, same⟩ := Option.map_eq_some_iff.mp shown
      have named : row.name = name := by rw [← same, parseInterface]
      subst named
      exact find?_of_distinct (nodup_fetchOpenvpn schema conforms)
        ((mem_fetchOpenvpn schema conforms row).mpr shown)

/-- A row has what an update asks for. -/
structure Shows (row u : OpenvpnInterface Num) : Prop where
  name : row.name = u.name
  mode : row.mode = u.mode
  fields : ∀ push ∈ allFields (some row) u, push.Same

/-- A save took effect: the row is as asked for, the nodes of the old mode are
gone, and everything else is as it was. -/
structure Switched (numerals : Numerals Num) (locale : Firewall.Locale)
    (root after : Cfg) (live : Option (OpenvpnInterface Num))
    (u : OpenvpnInterface Num) : Prop where
  shows : ∃ row ∈ fetchOpenvpn numerals locale after, Shows row u
  purged : ∀ row, live = some row → row.mode ≠ u.mode →
    ∀ node ∈ row.mode.nodes,
      (∀ path ∈ u.mode.paths, path.head? ≠ some node) →
        subtree (openvpnBase u.name ++ [node]) after = none
  others : ∀ row : OpenvpnInterface Num, row.name ≠ u.name →
    (row ∈ fetchOpenvpn numerals locale after ↔
      row ∈ fetchOpenvpn numerals locale root)
  elsewhere : ∀ probe, Diverges (openvpnBase u.name) probe →
    subtree probe after = subtree probe root

variable (numerals) in
/-- The configuration after a save. -/
abbrev afterSave (kinds : Kinds String) (root : Cfg)
    (u : OpenvpnInterface Num) : Cfg :=
  executeAll kinds
    (diffOpenvpn numerals (readInterface numerals root u.name) u) root

theorem commands_proper (live : Option (OpenvpnInterface Num))
    (u : OpenvpnInterface Num) :
    ∀ command ∈ purge live u ++
        laid ((openvpnPushes live u).map (Push.block numerals)),
      command ≠ .delete [] := by
  intro command member
  rcases List.mem_append.mp member with purges | writes
  · obtain ⟨path, proper, rfl⟩ := purge_deletes _ _ command purges
    simpa using proper
  · refine (openvpnPushes_separate live u).proper ?_ command writes
    rw [written_pushes, paths_openvpnPushes]
    cases u.mode <;> exact of_decide_eq_true rfl

/-- The interface after a save. -/
theorem subtree_afterSave (schema : OpenvpnSchema kinds)
    (conforms : Conforms kinds root) :
    subtree (openvpnBase u.name) (afterSave numerals kinds root u) =
      some (executeAll (kinds.below (openvpnBase u.name))
        (purge (readInterface numerals root u.name) u ++
          laid ((openvpnPushes (readInterface numerals root u.name) u).map
            (Push.block numerals)))
        (slice (openvpnBase u.name) root)) := by
  rw [afterSave, diffOpenvpn, readInterface, Option.isSome_map]
  exact subtree_created (schema.interfaces _) (commands_proper _ _) conforms

theorem subtree_afterSave_of_diverges {probe : Path}
    (elsewhere : Diverges (openvpnBase u.name) probe) :
    subtree probe (afterSave numerals kinds root u) = subtree probe root := by
  rw [afterSave, diffOpenvpn]
  exact (spares_under elsewhere _).subtree_eq root

theorem openvpnBase_diverges {name other : String} (different : name ≠ other) :
    Diverges (openvpnBase name) (openvpnBase other) :=
  diverges_of_length rfl (by simpa [openvpnBase] using different)

/-- The row that is read after a save. -/
theorem shows_iff (schema : OpenvpnSchema kinds)
    (conforms : Conforms kinds root) (submitted : Submitted numerals u) :
    (∃ row ∈ fetchOpenvpn numerals locale
        (afterSave numerals kinds root u), Shows row u) ↔
      Covered (readInterface numerals root u.name) u := by
  have after : Conforms kinds (afterSave numerals kinds root u) :=
    conforms.executeAll
  have there := @subtree_afterSave _ numerals _ _ u schema conforms
  have inner := conforms.slice (schema.interfaces u.name)
  have shaped : Shaped (kinds.below (openvpnBase u.name)) openvpnShape :=
    fun field member => schema.body u.name field (List.mem_cons_of_mem _ member)
  have field := schema.body u.name _ List.mem_cons_self
  have reads : readInterface numerals root u.name =
        some (parseInterface numerals u.name (slice (openvpnBase u.name) root)) ∨
      readInterface numerals root u.name = none ∧
        slice (openvpnBase u.name) root = .node [] := by
    rw [readInterface, slice]
    cases subtree (openvpnBase u.name) root with
    | none => exact .inr ⟨rfl, rfl⟩
    | some raw => exact .inl rfl
  have done := fields_done_iff shaped submitted inner reads
  have mode := @mode_saved _ numerals _ _ u field u.name _ inner
    (reads.imp_right And.left)
  generalize executeAll (kinds.below (openvpnBase u.name)) _ _ = saved
    at there done mode
  rw [← done]
  have blanks : ∀ row : OpenvpnInterface Num,
      (allFields (some row) u).map Push.blank =
        (allFields none u).map Push.blank := fun _ => rfl
  have whole : ∀ row, ∀ push ∈ allFields (some row) u,
      push.Whole numerals := by
    intro row push member
    rw [← Push.whole_blank]
    refine submitted.whole _ ?_
    rw [← blank_allFields (some row) u]
    exact List.mem_map_of_mem member
  have read : readInterface numerals (afterSave numerals kinds root u)
      u.name = some (parseInterface numerals u.name saved) := by
    rw [readInterface, there, Option.map_some]
  have live := @allFields_live _ numerals u.name saved u
  rw [← Push.forall_done_congr (blanks (parseInterface numerals u.name saved))]
  constructor
  · rintro ⟨row, member, shows⟩
    rw [mem_fetchOpenvpn schema after, shows.name, read, Option.some.injEq]
      at member
    subst member
    intro push inside
    exact (Push.same_iff_done (live push inside) (whole _ push inside)).mp
      (shows.fields push inside)
  · intro done
    refine ⟨parseInterface numerals u.name saved,
      (mem_fetchOpenvpn schema after _).mpr read, rfl, mode, ?_⟩
    intro push inside
    exact (Push.same_iff_done (live push inside) (whole _ push inside)).mpr
      (done push inside)

/-- A mode writes apart from the nodes of the others that it does not
share. -/
theorem nodes_diverge (live : Option (OpenvpnInterface Num))
    (mode : OpenvpnMode) (changed : mode ≠ u.mode) :
    ∀ node ∈ mode.nodes, (∀ path ∈ u.mode.paths, path.head? ≠ some node) →
      ∀ path ∈ (openvpnPushes live u).map Push.path, Diverges path [node] := by
  rw [paths_openvpnPushes]
  revert changed
  cases mode <;> cases u.mode <;> exact of_decide_eq_true rfl

theorem nodes_purged (schema : OpenvpnSchema kinds)
    (conforms : Conforms kinds root) {row : OpenvpnInterface Num}
    (live : readInterface numerals root u.name = some row)
    (changed : row.mode ≠ u.mode) {node : String}
    (member : node ∈ row.mode.nodes)
    (foreign : ∀ path ∈ u.mode.paths, path.head? ≠ some node) :
    subtree (openvpnBase u.name ++ [node])
      (afterSave numerals kinds root u) = none := by
  rw [subtree_append, subtree_afterSave schema conforms, Option.bind_some, live,
    executeAll_append, (spares_pushes
      (nodes_diverge (some row) row.mode changed node member foreign)).subtree_eq]
  refine subtree_purged (List.cons_ne_nil node []) (List.prefix_refl _) ?_
  rw [purge, if_pos changed]
  exact List.mem_append_left _ (List.mem_map_of_mem member)

theorem switched_iff (schema : OpenvpnSchema kinds)
    (conforms : Conforms kinds root) (submitted : Submitted numerals u) :
    Switched numerals locale root (afterSave numerals kinds root u)
        (readInterface numerals root u.name) u ↔
      Covered (readInterface numerals root u.name) u := by
  have after : Conforms kinds (afterSave numerals kinds root u) :=
    conforms.executeAll
  rw [← shows_iff schema conforms submitted]
  refine ⟨Switched.shows, fun shows => ⟨shows, ?_, ?_, ?_⟩⟩
  · intro row live changed node member foreign
    exact nodes_purged schema conforms live changed member foreign
  · intro row different
    rw [mem_fetchOpenvpn schema after, mem_fetchOpenvpn schema conforms,
      readInterface, readInterface,
      subtree_afterSave_of_diverges (openvpnBase_diverges different.symm)]
  · exact fun probe elsewhere => subtree_afterSave_of_diverges elsewhere

/-! ## A row that is saved as it is -/

/-- No value of the row has white space around it. -/
def ValuesTidy (row : OpenvpnInterface Num) : Prop :=
  (∀ text ∈ row.openvpn_options, Plain text) ∧
    (row.mode = .server → (∀ text ∈ row.server_push_routes, Plain text) ∧
      ∀ text ∈ row.server_name_servers, Plain text)

theorem tidy_iff (row : OpenvpnInterface Num) :
    (∀ push ∈ commonPushes (some row) row ++ modePushes (some row) row ++
        [optionPush (some row) row], push.Tidy) ↔ ValuesTidy row := by
  simp only [List.forall_mem_append, ValuesTidy]
  have common : ∀ push ∈ commonPushes (some row) row, push.Tidy := by
    simp [commonPushes, Push.Tidy]
  have option : (∀ push ∈ [optionPush (some row) row], push.Tidy) ↔
      ∀ text ∈ row.openvpn_options, Plain text := by
    simp [optionPush, Push.Tidy]
  rw [option, and_iff_right common, and_comm]
  refine and_congr_right fun _ => ?_
  unfold modePushes
  cases mode : row.mode <;> simp [mode, Push.Tidy, Option.filter_some]

theorem diffOpenvpn_unchanged_iff (name : String) (raw : Cfg) :
    diffOpenvpn numerals (some (parseInterface numerals name raw))
        (parseInterface numerals name raw) = [] ↔
      ValuesTidy (parseInterface numerals name raw) := by
  have reads := fun u => @allFields_live _ numerals name raw u
  generalize parseInterface numerals name raw = row at reads ⊢
  have untouched : ∀ push ∈ allFields (some row) row, push.Untouched := by
    simp [allFields, commonPushes, modeFields, optionPush, Push.Untouched]
  have mode : (modePush (some row) row).commands numerals = [] := by
    rw [modePush, Push.commands, Option.map_some]
    exact leaf_same (by rw [Option.bind_some, trimmed_text])
  have listed : ∀ push ∈ commonPushes (some row) row ++
      modePushes (some row) row ++ [optionPush (some row) row],
        push ∈ allFields (some row) row := by
    rw [modePushes_eq, Option.filter_some, if_pos (by simp)]
    intro push member
    simp only [allFields, List.mem_append, List.mem_filter] at member ⊢
    rcases member with (common | ⟨mode, _⟩) | option
    · exact .inl (.inl common)
    · exact .inl (.inr mode)
    · exact .inr option
  rw [← tidy_iff, diffOpenvpn, created, if_neg (by simp), List.map_eq_nil_iff,
    purge_same rfl, List.nil_append, laid_pushes_eq_nil_iff, openvpnPushes,
    List.forall_mem_cons, and_iff_right mode]
  refine forall₂_congr fun push member => ?_
  exact Push.quiet_iff (reads row push (listed push member))
    (untouched push (listed push member))

/-- When saves of OpenVPN interfaces do what they are to do. -/
theorem openvpn_saves_iff (schema : OpenvpnSchema kinds)
    (rendered : Rendered kinds root) :
    (∀ u : OpenvpnInterface Num, Submitted numerals u →
      (Switched numerals locale root
          (executeAll kinds (diffOpenvpn numerals
            ((fetchOpenvpn numerals locale root).find? (·.name = u.name)) u)
            root)
          ((fetchOpenvpn numerals locale root).find? (·.name = u.name)) u ↔
        Covered ((fetchOpenvpn numerals locale root).find?
          (·.name = u.name)) u)) ∧
    ∀ row ∈ fetchOpenvpn numerals locale root,
      (diffOpenvpn numerals (some row) row = [] ↔ ValuesTidy row) := by
  constructor
  · intro u submitted
    rw [find_fetchOpenvpn schema rendered.conforms]
    exact switched_iff schema rendered.conforms submitted
  · intro row member
    have shown := (mem_fetchOpenvpn schema rendered.conforms row).mp member
    obtain ⟨raw, _, same⟩ := Option.map_eq_some_iff.mp shown
    have unchanged := @diffOpenvpn_unchanged_iff _ numerals row.name raw
    rwa [same] at unchanged

end Rows

/-! ## A remote host that survives -/

def openvpnKinds : Kinds String
  | ["interfaces", "openvpn", _, "persistent-tunnel"] => .valueless
  | ["interfaces", "openvpn", _, "disable"] => .valueless
  | ["interfaces", "openvpn", _, "openvpn-option"] => .multi
  | ["interfaces", "openvpn", _, leaf] =>
      if leaf ∈ ["tls", "encryption", "authentication", "server"] then .node
      else .single
  | ["interfaces", "openvpn", _, "server", leaf] =>
      if leaf ∈ ["push-route", "name-server"] then .multi else .single
  | ["interfaces", "openvpn", _, _, _] => .single
  | _ => .node

theorem openvpnSchema : OpenvpnSchema openvpnKinds where
  interfaces _ := ⟨rfl, rfl, rfl, trivial⟩
  body _ := of_decide_eq_true rfl

/-- A site-to-site tunnel that dials a peer. -/
def dialing : Cfg :=
  .node [("interfaces", .node [("openvpn", .node [("vtun0", .node
    [("mode", .value "site-to-site"), ("local-address", .value "10.255.0.1"),
      ("remote-host", .value "peer.example.com"),
      ("tls", .node [("role", .value "active")])])])])]

theorem rendered_dialing : Rendered openvpnKinds dialing where
  conforms := conforms_of_check rfl (by decide +kernel)
  modes := by
    have modes : allAt (fun _ leaf => (leafValues (some leaf)).all fun text =>
        (OpenvpnMode.ofText text).isSome)
        [some "interfaces", some "openvpn", none, some "mode"] dialing =
          true := by decide +kernel
    intro name text found
    have known := allAt_sound (openvpnBase name) modes (by simp [openvpnBase])
      found
    simp only [leafValues, List.all_cons, List.all_nil, Bool.and_true] at known
    obtain ⟨mode, read⟩ := Option.isSome_iff_exists.mp known
    have same := List.find?_some read
    exact ⟨mode, (of_decide_eq_true same).symm⟩

/-- The update that makes it a server. -/
def serving : OpenvpnInterface Nat :=
  { parseInterface decimals "vtun0" (.node []) with
    mode := .server
    server_subnet := some "10.8.0.0/24" }

theorem submitted_serving : Submitted decimals serving where
  own := by decide +kernel
  whole := by
    simp [allFields, commonPushes, modeFields, optionPush, serving,
      Push.Whole]
    decide +kernel

theorem dialing_switched_iff :
    Switched decimals anyOrder dialing
        (executeAll openvpnKinds (diffOpenvpn decimals
          ((fetchOpenvpn decimals anyOrder dialing).find? (·.name = serving.name))
          serving) dialing)
        ((fetchOpenvpn decimals anyOrder dialing).find? (·.name = serving.name))
        serving ↔
      Covered ((fetchOpenvpn decimals anyOrder dialing).find?
        (·.name = serving.name)) serving :=
  (openvpn_saves_iff openvpnSchema rendered_dialing).1 serving submitted_serving

/-- The server that the tunnel becomes still has a remote host. -/
theorem remoteHost_survives :
    ¬ Switched decimals anyOrder dialing
        (executeAll openvpnKinds (diffOpenvpn decimals
          ((fetchOpenvpn decimals anyOrder dialing).find? (·.name = serving.name))
          serving) dialing)
        ((fetchOpenvpn decimals anyOrder dialing).find? (·.name = serving.name))
        serving := by
  intro switched
  obtain ⟨row, member, shows⟩ := switched.shows
  have asked : row.remote_host = none :=
    shows.fields (.leaf ["remote-host"] row.remote_host serving.remote_host)
      (by simp [allFields, modeFields])
  have kept : ∀ row ∈ fetchOpenvpn decimals anyOrder
      (executeAll openvpnKinds (diffOpenvpn decimals
        ((fetchOpenvpn decimals anyOrder dialing).find? (·.name = serving.name))
        serving) dialing), row.remote_host = some "peer.example.com" := by
    decide +kernel
  rw [kept row member] at asked
  cases asked

end QuartzFire.Openvpn
