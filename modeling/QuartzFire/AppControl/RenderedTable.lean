import Mathlib.Data.List.Find
import QuartzFire.AppControl.Nftgen

/-!
# What the rendered table does

Running the rendered rules one after another does what the chains of the
connection-mark model say, and the rules of a binding together match exactly
the packets its specification describes.
-/

namespace QuartzFire.AppControl

open Nft

section Marks

variable {parseAddr : String → Option IpAddr} {layout : Layout}
  {queues : QueueSpec} {bindings : List PolicyBinding}
  {call : QfChain → Skb → Progress QueueStatement × Skb}

theorem holds_markIs (skb : Skb) (field : MarkField) (mask : Mark) :
    ruleMeaning.holds (.markIs field mask mask) skb =
      (skb.read field).hasAll mask := by
  rw [Mark.hasAll, Bool.eq_iff_iff, beq_iff_eq]
  exact decide_eq_true_iff

@[simp] theorem apply_counter (skb : Skb) :
    ruleMeaning.apply .counter skb = skb := rfl

/-! ## Persisting -/

theorem runRule_persistBitRule {bit : Nat} {rule : QfRule}
    (owned : persistBitRule layout bit = some rule) (skb : Skb) :
    runRule ruleMeaning call rule skb =
      (.next, { skb with
        ctMark := persistBit layout skb.mark skb.ctMark bit }) := by
  rw [persistBitRule] at owned
  split at owned
  · rename_i inMask
    cases owned
    rw [runRule_test, holds_markIs, persistBit]
    cases carried : (skb.read .pkt).hasAll (1#32 <<< bit) with
    | true =>
        rw [if_pos rfl, if_pos ⟨inMask, carried⟩]
        rfl
    | false =>
        rw [if_neg Bool.false_ne_true, if_neg]
        rintro ⟨_, both⟩
        rw [show skb.mark = skb.read .pkt from rfl, carried] at both
        cases both
  · cases owned

/-- The conditional ors copy the daemon's bits one by one. -/
theorem runRules_persistBits (bits : List Nat) (skb : Skb) :
    runRules ruleMeaning call (bits.filterMap (persistBitRule layout)) skb =
      (.next, { skb with
        ctMark := bits.foldl (persistBit layout skb.mark) skb.ctMark }) := by
  induction bits generalizing skb with
  | nil => rfl
  | cons bit bits ih =>
      rw [List.foldl_cons]
      cases owned : persistBitRule layout bit with
      | none =>
          rw [List.filterMap_cons_none owned, ih]
          have foreign : persistBit layout skb.mark skb.ctMark bit =
              skb.ctMark := by
            rw [persistBit, if_neg]
            rintro ⟨inMask, _⟩
            rw [persistBitRule, if_pos inMask] at owned
            cases owned
          rw [foreign]
      | some rule =>
          rw [List.filterMap_cons_some owned,
            runRules_cons_next (runRule_persistBitRule owned skb), ih]

theorem runRules_persistRules (skb : Skb) :
    runRules ruleMeaning call (persistRules layout) skb =
      (.next, { skb with
        ctMark := persistChain layout skb.mark skb.ctMark }) := by
  have cleared : runRule ruleMeaning call
      [.effect (.set .ct (.and (.mark .ct) (~~~layout.qfMask))),
        .effect .counter] skb =
      (.next, { skb with ctMark := skb.ctMark &&& ~~~layout.qfMask }) := rfl
  rw [persistRules, runRules_cons_next cleared, runRules_persistBits]
  rfl

/-- The decomposed merge is the merge. -/
theorem persistChain_eq (packetMark ctMark : Mark) :
    persistChain layout packetMark ctMark =
      (ctMark &&& ~~~layout.qfMask) ||| (packetMark &&& layout.qfMask) := by
  apply BitVec.eq_of_getLsbD_eq
  intro bit bound
  rw [persistChain, getLsbD_foldl_persistBit _ _ (by simp)]
  simp only [List.mem_reverse, List.mem_range, bound, decide_true,
    Bool.true_and, BitVec.getLsbD_or, BitVec.getLsbD_and]
  rw [Bool.and_comm (layout.qfMask.getLsbD bit)]

/-- The first rule of the second hook persists what a packet carries. -/
theorem runRule_persist (chains : Chains RuleTest RuleEffect QfChain
      QueueStatement) (depth : Nat)
    (persist : chains .qfPersist = persistRules layout) (skb : Skb) :
    runRule ruleMeaning (runChain ruleMeaning chains (depth + 1))
        [.test (.markIs .pkt layout.classifiedMask layout.classifiedMask),
          .verdict (.jump .qfPersist)] skb =
      (.next, { skb with
        ctMark := (verdictChain layout skb.ctMark skb.mark).1 }) := by
  rw [runRule_test, holds_markIs, verdictChain]
  cases carried : (skb.read .pkt).hasAll layout.classifiedMask with
  | true =>
      have called : runChain ruleMeaning chains (depth + 1) .qfPersist skb =
          (.next, { skb with
            ctMark := persistChain layout skb.mark skb.ctMark }) := by
        rw [runChain, persist, runRules_persistRules]
      rw [if_pos rfl, show skb.mark.hasAll layout.classifiedMask = true from
        carried, if_pos rfl]
      simp only [runRule, called, resume]
  | false =>
      rw [if_neg Bool.false_ne_true,
        show skb.mark.hasAll layout.classifiedMask = false from carried,
        if_neg Bool.false_ne_true]

theorem renderTable_forwardVerdict :
    renderTable parseAddr layout queues bindings .forwardVerdict =
      [[.test (.markIs .pkt layout.classifiedMask layout.classifiedMask),
          .verdict (.jump .qfPersist)],
        [.test (.markIs .pkt (layout.classifiedMask ||| layout.blockMask)
            (layout.classifiedMask ||| layout.blockMask)),
          .effect .counter, .verdict .drop]] := rfl

/-- The second hook persists and blocks as `verdictChain` does. -/
theorem runHook_forwardVerdict (skb : Skb) :
    runHook ruleMeaning (renderTable parseAddr layout queues bindings)
        .forwardVerdict skb =
      (if (verdictChain layout skb.ctMark skb.mark).2 then .accept else .drop,
        { skb with
          ctMark := (verdictChain layout skb.ctMark skb.mark).1 }) := by
  have persisted := runRule_persist
    (renderTable parseAddr layout queues bindings) 15 rfl skb
  rw [runHook_eq, renderTable_forwardVerdict, jumpDepth,
    runRules_cons_next persisted, runRules, runRule_test, holds_markIs]
  cases blocks : skb.mark.hasAll
      (layout.classifiedMask ||| layout.blockMask) with
  | true =>
      rw [if_pos (by exact blocks)]
      simp [runRule, verdictChain, blocks]
  | false =>
      rw [if_neg (by exact fun both => by simp [Skb.read, blocks] at both)]
      simp [verdictChain, blocks]

end Marks

/-! ## Bindings -/

section Bindings

variable {parseAddr : String → Option IpAddr} {layout : Layout}
  {queues : QueueSpec} {call : QfChain → Skb → Progress QueueStatement × Skb}

/-- A rule of a binding queues the packets it matches under the binding's
action id, and changes nothing of the others. -/
theorem runRule_rulesOf {binding : PolicyBinding} {rule : QfRule}
    (member : rule ∈ rulesOf parseAddr layout queues binding) (skb : Skb) :
    runRule ruleMeaning call rule skb =
      if Rule.matches ruleMeaning skb rule then
        (.done (.queue queues.stmt), { skb with
          mark := (layout.encodeAction binding.actionId).apply skb.mark })
      else (.next, skb) := by
  rw [rulesOf, List.mem_flatMap] at member
  obtain ⟨family, _, member⟩ := member
  obtain ⟨l4, _, rfl⟩ := List.mem_map.mp member
  rw [runRule_tests, matches_tests]
  have untested : Rule.matches ruleMeaning skb
      (bindingActions layout queues binding.actionId) = true := rfl
  rw [untested, Bool.and_true]
  rfl

/-- Some rule of a binding matches. -/
def firesOn (parseAddr : String → Option IpAddr) (layout : Layout)
    (queues : QueueSpec) (skb : Skb) (binding : PolicyBinding) : Bool :=
  (rulesOf parseAddr layout queues binding).any (Rule.matches ruleMeaning skb)

theorem runRules_rulesOf (binding : PolicyBinding) (skb : Skb) :
    runRules ruleMeaning call (rulesOf parseAddr layout queues binding) skb =
      if firesOn parseAddr layout queues skb binding then
        (.done (.queue queues.stmt), { skb with
          mark := (layout.encodeAction binding.actionId).apply skb.mark })
      else (.next, skb) :=
  runRules_alike (by simp) fun _ member => runRule_rulesOf member skb

/-- The first binding one of whose rules matches queues the packet. -/
theorem runRules_bindingRules (bindings : List PolicyBinding) (skb : Skb) :
    runRules ruleMeaning call
        (bindingRules parseAddr layout queues bindings) skb =
      match bindings.find? (firesOn parseAddr layout queues skb) with
      | some binding =>
          (.done (.queue queues.stmt), { skb with
            mark := (layout.encodeAction binding.actionId).apply skb.mark })
      | none => (.next, skb) := by
  induction bindings with
  | nil => rfl
  | cons binding bindings ih =>
      rw [bindingRules, List.flatMap_cons, runRules_append,
        runRules_rulesOf, List.find?_cons]
      cases fires : firesOn parseAddr layout queues skb binding with
      | true => rw [if_pos rfl]
      | false =>
          rw [if_neg Bool.false_ne_true]
          exact ih

/-! ### What a binding's rules ask for -/

/-- What the policy compiler checks of a specification. -/
structure SpecChecked (parseAddr : String → Option IpAddr) (spec : MatchSpec) :
    Prop where
  names : ∀ name ∈ spec.iifname ++ spec.oifname,
    Policy.validIfname name = true
  addresses : ∀ text ∈ spec.saddr ++ spec.daddr,
    (cidr parseAddr text).isSome = true

theorem holds_guard (skb : Skb) :
    ruleMeaning.holds (.markIs .pkt layout.classifiedMask 0#32) skb =
      !(layout.decode skb.mark).classified := by
  rw [Layout.decode, Bool.eq_iff_iff, Bool.not_eq_true', bne_eq_false_iff_eq]
  exact decide_eq_true_iff

theorem all_ifnameMatch {field : List String → RuleTest} {names : List String}
    {name : String} (valid : ∀ name ∈ names, Policy.validIfname name = true)
    {skb : Skb} (reads : ∀ names : List String,
      ruleMeaning.holds (field names) skb = (name ∈ names : Bool)) :
    ((ifnameMatch field names).all fun test => ruleMeaning.holds test skb) =
      namesAllow names name := by
  have safe : names.filter Policy.validIfname = names :=
    List.filter_eq_self.mpr valid
  rw [ifnameMatch, namesAllow, safe]
  by_cases any : names = []
  · simp [any]
  · simp [any, reads]

theorem family_of_contains {range : Cidr} {addr : IpAddr}
    (contains : range.contains addr = true) :
    range.ip.family = addr.family := by
  unfold Cidr.contains at contains
  cases addr <;> cases same : range.ip <;> simp [same] at contains <;> rfl

/-- Where a family has candidates, the address test asks for the family and
for one of the addresses. -/
theorem all_addrMatch {family : Family}
    {field : Family → List Cidr → RuleTest} {addrs : List String}
    {addr : IpAddr} (possible : feasible parseAddr family addrs = true)
    {skb : Skb} (reads : ∀ members : List Cidr,
      ruleMeaning.holds (field family members) skb =
        ((addr.family = family : Bool) &&
          members.any fun range => range.contains addr)) :
    ((addrMatch parseAddr family field addrs).all fun test =>
        ruleMeaning.holds test skb) =
      ((addrs = [] : Bool) || (addr.family = family : Bool) &&
        addressesAllow parseAddr addrs addr) := by
  by_cases any : addrs = []
  · simp [addrMatch, any]
  · have candidates : ((addrs.filterMap (cidr parseAddr)).filter fun range =>
        range.ip.family = family) ≠ [] := by
      simp only [feasible, any, decide_false, Bool.false_or, List.any_eq_true]
        at possible
      obtain ⟨text, member, found⟩ := possible
      obtain ⟨range, parsed, same⟩ := (Option.any_eq_true _ _).mp found
      refine List.ne_nil_of_mem (a := range) (List.mem_filter.mpr ⟨?_, same⟩)
      exact List.mem_filterMap.mpr ⟨text, member, parsed⟩
    have same : addr.family = family →
        (((addrs.filterMap (cidr parseAddr)).filter fun range =>
          range.ip.family = family).any fun range => range.contains addr) =
        addressesAllow parseAddr addrs addr := by
      intro ofFamily
      rw [addressesAllow, decide_eq_false any, Bool.false_or,
        Bool.eq_iff_iff, List.any_eq_true, List.any_eq_true]
      constructor
      · rintro ⟨range, member, contains⟩
        obtain ⟨text, inside, parsed⟩ :=
          List.mem_filterMap.mp (List.mem_filter.mp member).1
        exact ⟨text, inside, by simp [parsed, contains]⟩
      · rintro ⟨text, inside, found⟩
        obtain ⟨range, parsed, contains⟩ := (Option.any_eq_true _ _).mp found
        refine ⟨range, List.mem_filter.mpr ⟨?_, ?_⟩, contains⟩
        · exact List.mem_filterMap.mpr ⟨text, inside, parsed⟩
        · exact decide_eq_true ((family_of_contains contains).trans ofFamily)
    rw [addrMatch, if_neg (by simp [any, candidates]), List.all_cons,
      List.all_nil, Bool.and_true, reads, decide_eq_false any, Bool.false_or]
    by_cases ofFamily : addr.family = family
    · rw [same ofFamily]
    · simp [ofFamily]

/-- One of the transport variants holds where the specification allows. -/
theorem any_l4Variants (spec : MatchSpec) (skb : Skb) :
    ((l4Variants spec).any fun l4 =>
        l4.all fun test => ruleMeaning.holds test skb) =
      (spec.l4.isEmpty || spec.l4.any fun l4 => l4.allows skb.packet) := by
  rw [l4Variants]
  cases spec.l4.isEmpty with
  | true => rfl
  | false =>
      rw [if_neg Bool.false_ne_true, List.any_map, Bool.false_or]
      congr 1
      funext l4
      by_cases portless : l4.dports = []
      · simp [portless, L4Match.allows, ruleMeaning, RuleTest.holds]
      · simp [portless, L4Match.allows, ruleMeaning, RuleTest.holds]

theorem feasible_of_allows {addrs : List String} {addr : IpAddr}
    (allows : addressesAllow parseAddr addrs addr = true) :
    feasible parseAddr addr.family addrs = true := by
  rw [addressesAllow, Bool.or_eq_true] at allows
  rw [feasible, Bool.or_eq_true]
  refine allows.imp id fun some => ?_
  obtain ⟨text, member, found⟩ := List.any_eq_true.mp some
  obtain ⟨range, parsed, contains⟩ := (Option.any_eq_true _ _).mp found
  refine List.any_eq_true.mpr ⟨text, member, ?_⟩
  simp [parsed, family_of_contains contains]

theorem all_addressTests {spec : MatchSpec} {family : Family}
    (source : feasible parseAddr family spec.saddr = true)
    (destination : feasible parseAddr family spec.daddr = true) (skb : Skb) :
    ((addressTests parseAddr spec (some family)).all fun test =>
        ruleMeaning.holds test skb) =
      (((spec.saddr = [] : Bool) ||
          (skb.packet.addresses.source.family = family : Bool) &&
          addressesAllow parseAddr spec.saddr skb.packet.addresses.source) &&
        ((spec.daddr = [] : Bool) ||
          (skb.packet.addresses.destination.family = family : Bool) &&
          addressesAllow parseAddr spec.daddr
            skb.packet.addresses.destination)) := by
  rw [addressTests, List.all_append,
    all_addrMatch source fun members => rfl,
    all_addrMatch destination fun members => rfl]

/-- Over the families a specification allows, the address tests ask for what
the specification does. -/
theorem any_matchedFamilies (spec : MatchSpec) (skb : Skb) :
    ((matchedFamilies parseAddr spec).any fun family =>
        (addressTests parseAddr spec family).all fun test =>
          ruleMeaning.holds test skb) =
      (addressesAllow parseAddr spec.saddr skb.packet.addresses.source &&
        addressesAllow parseAddr spec.daddr
          skb.packet.addresses.destination) := by
  rw [matchedFamilies]
  by_cases free : spec.saddr = [] ∧ spec.daddr = []
  · simp [free, addressesAllow, addressTests]
  · rw [if_neg free, Bool.eq_iff_iff, Bool.and_eq_true, List.any_map,
      List.any_eq_true]
    constructor
    · rintro ⟨family, member, holds⟩
      have possible := (List.mem_filter.mp member).2
      rw [Bool.and_eq_true] at possible
      rw [Function.comp_apply, all_addressTests possible.1 possible.2,
        Bool.and_eq_true, Bool.or_eq_true, Bool.or_eq_true, Bool.and_eq_true,
        Bool.and_eq_true] at holds
      refine ⟨holds.1.elim (fun any => ?_) And.right,
        holds.2.elim (fun any => ?_) And.right⟩
      · rw [addressesAllow, any, Bool.true_or]
      · rw [addressesAllow, any, Bool.true_or]
    · rintro ⟨source, destination⟩
      have possible := feasible_of_allows source
      have possible' := feasible_of_allows destination
      rw [families_agree] at possible'
      refine ⟨skb.packet.addresses.source.family, List.mem_filter.mpr
        ⟨?_, by rw [possible, possible', Bool.true_and]⟩, ?_⟩
      · cases skb.packet.addresses.source.family <;> simp
      · rw [Function.comp_apply, all_addressTests possible possible',
          families_agree, source, destination]
        simp

/-- The rules of a binding match the packets without a verdict that its
specification describes. -/
theorem firesOn_eq {binding : PolicyBinding}
    (checked : SpecChecked parseAddr binding.matchSpec) (skb : Skb) :
    firesOn parseAddr layout queues skb binding =
      (!(layout.decode skb.mark).classified &&
        binding.matchSpec.satisfied parseAddr skb.packet) := by
  have names := checked.names
  rw [List.forall_mem_append] at names
  have tests : ∀ family l4,
      Rule.matches ruleMeaning skb
        ((bindingTests parseAddr layout binding.matchSpec family l4).map
          .test ++ bindingActions layout queues binding.actionId) = true ↔
      (layout.decode skb.mark).classified = false ∧
        namesAllow binding.matchSpec.iifname skb.packet.iifname = true ∧
        namesAllow binding.matchSpec.oifname skb.packet.oifname = true ∧
        ((addressTests parseAddr binding.matchSpec family).all fun test =>
          ruleMeaning.holds test skb) = true ∧
        (l4.all fun test => ruleMeaning.holds test skb) = true := by
    intro family l4
    have untested : Rule.matches ruleMeaning skb
        (bindingActions layout queues binding.actionId) = true := rfl
    rw [matches_tests, untested, Bool.and_true, bindingTests, List.all_cons,
      holds_guard, List.all_append, List.all_append, List.all_append,
      all_ifnameMatch names.1 fun names => rfl,
      all_ifnameMatch names.2 fun names => rfl]
    simp only [Bool.and_eq_true, Bool.not_eq_true', and_assoc]
  have addresses := @any_matchedFamilies parseAddr binding.matchSpec skb
  have transport := any_l4Variants binding.matchSpec skb
  rw [MatchSpec.satisfied, ← transport, Bool.and_assoc (namesAllow _ _ && _),
    ← addresses, Bool.eq_iff_iff]
  simp only [firesOn, rulesOf, List.any_flatMap, List.any_map,
    Function.comp_def, List.any_eq_true, tests, Bool.and_eq_true,
    Bool.not_eq_true']
  constructor
  · rintro ⟨family, inFamilies, l4, inVariants, unclassified, inbound,
      outbound, address, port⟩
    exact ⟨unclassified, ⟨⟨inbound, outbound⟩, family, inFamilies, address⟩,
      l4, inVariants, port⟩
  · rintro ⟨unclassified, ⟨⟨inbound, outbound⟩, family, inFamilies, address⟩,
      l4, inVariants, port⟩
    exact ⟨family, inFamilies, l4, inVariants, unclassified, inbound,
      outbound, address, port⟩

/-! ### Compiled policies -/

theorem parseCidr_eq (text : String) :
    Policy.parseCidr (fun text => (parseAddr text).map isIpv4) text =
      (cidr parseAddr text).map fun range =>
        (isIpv4 range.ip, range.plen) := by
  rw [Policy.parseCidr, cidr]
  cases parseAddr (String.ofList ((text.toList.splitOn '/').headD [])) with
  | none => rfl
  | some ip =>
      simp only [Option.map_some, Option.bind_some]
      generalize (if (text.toList.splitOn '/').length ≤ 1 then none
        else some (String.ofList
          (['/'].intercalate (text.toList.splitOn '/').tail))) = plen
      cases plen with
      | none => rfl
      | some plen =>
          simp only [Option.map_bind]
          congr 1
          funext length
          simp only [Function.comp_apply]
          generalize (if isIpv4 ip then 32 else 128) = most
          split <;> rfl

theorem specChecked_of_checkMatch {binding : BindingSpec}
    (accepted : Policy.checkMatch
      (fun text => (parseAddr text).map isIpv4) binding = .ok ()) :
    SpecChecked parseAddr binding.matchSpec := by
  simp only [Policy.checkMatch] at accepted
  split at accepted
  · cases accepted
  · rename_i names
    split at accepted
    · cases accepted
    · rename_i addresses
      constructor
      · intro name member
        simpa using List.find?_eq_none.mp names name member
      · intro text member
        have parses := List.find?_eq_none.mp addresses text member
        rw [parseCidr_eq] at parses
        simpa [Option.isSome_iff_ne_none] using parses

theorem forM_ok {Item : Type} {check : Item → Except PolicyError Unit}
    {items : List Item} (accepted : items.forM check = .ok ()) :
    ∀ item ∈ items, check item = .ok () := by
  induction items with
  | nil => simp
  | cons item items ih =>
      change (check item >>= fun _ => items.forM check) = .ok () at accepted
      obtain ⟨_, first, rest⟩ := bind_eq_ok.mp accepted
      exact List.forall_mem_cons.mpr ⟨first, ih rest⟩

/-- Every binding of a compiled policy has a checked specification. -/
theorem specChecked_of_compile {file : PolicyFile} {catalog : Catalog}
    {generation : Nat} {policy : Policy}
    (compiles : Policy.compile
      (fun text => (parseAddr text).map isIpv4) file catalog layout
      generation = .ok policy) :
    ∀ binding ∈ policy.bindings,
      SpecChecked parseAddr binding.matchSpec := by
  simp only [Policy.compile] at compiles
  split at compiles
  · cases compiles
  obtain ⟨_, _, compiles⟩ := bind_eq_ok.mp compiles
  obtain ⟨_, checked, compiles⟩ := bind_eq_ok.mp compiles
  obtain ⟨_, _, compiles⟩ := bind_eq_ok.mp compiles
  split at compiles
  · cases compiles
  cases compiles
  intro binding member
  obtain ⟨spec, inFile, rfl⟩ := List.mem_map.mp member
  exact specChecked_of_checkMatch (forM_ok checked spec inFile)

/-- The rules of a compiled binding match exactly the packets without a verdict
that its specification describes, and the chain queues a packet under the
action id of the first such binding. -/
theorem rendered_bindings_exact {file : PolicyFile} {catalog : Catalog}
    {generation : Nat} {policy : Policy}
    (accepted : layout.validate = .ok ())
    (compiles : Policy.compile
      (fun text => (parseAddr text).map isIpv4) file catalog layout
      generation = .ok policy) (skb : Skb) :
    (∀ binding ∈ policy.bindings,
      (∃ rule ∈ rulesOf parseAddr layout queues binding,
        Rule.matches ruleMeaning skb rule = true) ↔
      (layout.decode skb.mark).classified = false ∧
        binding.matchSpec.satisfied parseAddr skb.packet = true) ∧
    match policy.bindings.find? fun binding =>
        !(layout.decode skb.mark).classified &&
          binding.matchSpec.satisfied parseAddr skb.packet with
    | some binding => ∃ mark : Mark,
        runRules ruleMeaning call
            (bindingRules parseAddr layout queues policy.bindings) skb =
          (.done (.queue queues.stmt), { skb with mark := mark }) ∧
        (layout.decode mark).actionId = binding.actionId
    | none =>
        runRules ruleMeaning call
            (bindingRules parseAddr layout queues policy.bindings) skb =
          (.next, skb) := by
  have checked := specChecked_of_compile compiles
  have fires : ∀ binding ∈ policy.bindings,
      firesOn parseAddr layout queues skb binding =
        (!(layout.decode skb.mark).classified &&
          binding.matchSpec.satisfied parseAddr skb.packet) :=
    fun binding member => firesOn_eq (checked binding member) skb
  refine ⟨fun binding member => ?_, ?_⟩
  · have own := fires binding member
    rw [firesOn, Bool.eq_iff_iff, List.any_eq_true, Bool.and_eq_true,
      Bool.not_eq_true'] at own
    exact own
  · rw [← List.find?_congr fires]
    have ran := @runRules_bindingRules parseAddr layout queues call
      policy.bindings skb
    cases found : policy.bindings.find?
        (firesOn parseAddr layout queues skb) with
    | none =>
        rw [found] at ran
        exact ran
    | some binding =>
        rw [found] at ran
        refine ⟨_, ran, ?_⟩
        have wellFormed := (Policy.compile_wellFormed _ compiles).1
        exact decode_encodeAction_actionId (Layout.valid_of_validate accepted)
          (wellFormed.actionId_le binding (List.mem_of_find?_eq_some found)) _

end Bindings

/-! ### A site's binding -/

def siteAddr (text : String) : Option IpAddr :=
  if text = "10.1.0.0" then some (.v4 0x0A010000#32)
  else if text = "fd00::" then some (.v6 (0xFD00#128 <<< 112))
  else none

def siteSpec : MatchSpec :=
  ⟨["eth1"], [], ["10.1.0.0/16", "fd00::/8"], [], [⟨.tcp, [443]⟩, ⟨.udp, []⟩]⟩

def siteFile : PolicyFile :=
  ⟨2, [("web", ⟨.allow, .drop, [], []⟩)], [⟨10, "web", "", siteSpec⟩]⟩

def sitePolicy : Policy :=
  ⟨1, [⟨"web", 1, .allow, .drop, [], []⟩], [⟨10, 1, "web", "", siteSpec⟩], []⟩

theorem siteFile_compiles :
    Policy.compile (fun text => (siteAddr text).map isIpv4) siteFile
      ⟨[]⟩ .default 1 = .ok sitePolicy := by
  rfl

/-- A packet the site's binding describes. -/
def sitePacket (mark : Mark) : Skb :=
  { packet :=
      { iifname := "eth1"
        oifname := "eth0"
        addresses := .v4 0x0A010203#32 0x01010101#32
        protocol := Nft.tcp
        dport := 443 }
    ctMark := 0#32
    mark := mark }

theorem sitePolicy_exact :
    ∃ rule ∈ rulesOf siteAddr .default ⟨100, 4, .failOpen⟩
        ⟨10, 1, "web", "", siteSpec⟩,
      Rule.matches ruleMeaning (sitePacket 5#32) rule = true :=
  ((@rendered_bindings_exact siteAddr .default ⟨100, 4, .failOpen⟩
    (fun _ skb => (.next, skb)) siteFile ⟨[]⟩ 1 sitePolicy rfl
    siteFile_compiles (sitePacket 5#32)).1 _ List.mem_cons_self).mpr
      (by decide +kernel)

/-- The guard of the rules: a packet on its way back from the daemon satisfies
the specification, and no rule matches it. -/
theorem classified_packet_unmatched :
    Policy.compile (fun text => (siteAddr text).map isIpv4) siteFile
        ⟨[]⟩ .default 1 = .ok sitePolicy ∧
      (sitePacket (1#32 <<< 31)).packet.isTcpUdp = true ∧
      ∃ binding ∈ sitePolicy.bindings,
        binding.matchSpec.satisfied siteAddr
          (sitePacket (1#32 <<< 31)).packet = true ∧
        ¬ ∃ rule ∈ rulesOf siteAddr .default ⟨100, 4, .failOpen⟩ binding,
          Rule.matches ruleMeaning (sitePacket (1#32 <<< 31)) rule = true :=
  ⟨siteFile_compiles, by decide, _, List.mem_cons_self, by decide +kernel,
    by decide +kernel⟩

/-! ## The whole table -/

section Table

variable {parseAddr : String → Option IpAddr} {layout : Layout}
  {queues : QueueSpec} {bindings : List PolicyBinding}

theorem holds_l4proto_tcpUdp (skb : Skb) :
    ruleMeaning.holds (.l4proto [.tcp, .udp]) skb = skb.packet.isTcpUdp := by
  change (_ || (_ || false)) = _
  rw [Bool.or_false]
  rfl

theorem renderTable_forward :
    renderTable parseAddr layout queues bindings .forward =
      [[.test (.markIs .ct (layout.classifiedMask ||| layout.blockMask)
            (layout.classifiedMask ||| layout.blockMask)),
          .effect .counter, .verdict .drop],
        [.test (.markIs .ct layout.classifiedMask layout.classifiedMask),
          .effect .counter, .verdict .accept],
        [.test (.l4proto [.tcp, .udp]), .verdict (.jump .qfBindings)]] := rfl

/-- The first hook: the fast paths, then the bindings for TCP and UDP. -/
theorem runHook_forward (skb : Skb) :
    runHook ruleMeaning (renderTable parseAddr layout queues bindings)
        .forward skb =
      if skb.ctMark.hasAll (layout.classifiedMask ||| layout.blockMask) then
        (.drop, skb)
      else if skb.ctMark.hasAll layout.classifiedMask then (.accept, skb)
      else if skb.packet.isTcpUdp then
        match bindings.find? (firesOn parseAddr layout queues skb) with
        | some binding =>
            (.queue queues.stmt, { skb with
              mark := (layout.encodeAction binding.actionId).apply skb.mark })
        | none => (.accept, skb)
      else (.accept, skb) := by
  rw [runHook_eq, renderTable_forward, runRules, runRule_test, holds_markIs]
  cases blocked : (skb.read .ct).hasAll
      (layout.classifiedMask ||| layout.blockMask) with
  | true =>
      rw [if_pos rfl, if_pos (by exact blocked)]
      rfl
  | false =>
      rw [if_neg Bool.false_ne_true,
        if_neg (by exact fun both => by simp [Skb.read, both] at blocked)]
      simp only []
      rw [runRules, runRule_test, holds_markIs]
      cases classified : (skb.read .ct).hasAll layout.classifiedMask with
      | true =>
          rw [if_pos rfl, if_pos (by exact classified)]
          rfl
      | false =>
          rw [if_neg Bool.false_ne_true,
            if_neg (by exact fun both => by simp [Skb.read, both] at classified)]
          simp only []
          rw [runRules, runRule_test, holds_l4proto_tcpUdp]
          cases skb.packet.isTcpUdp with
          | false => rfl
          | true =>
              have called : runChain ruleMeaning
                  (renderTable parseAddr layout queues bindings) jumpDepth
                  .qfBindings skb = _ := runRules_bindingRules bindings skb
              rw [if_pos rfl, if_pos rfl, runRule, called]
              cases bindings.find? (firesOn parseAddr layout queues skb) <;>
                rfl

theorem merge_foreign (ctMark packetMark mask : Mark) :
    ((ctMark &&& ~~~mask) ||| (packetMark &&& mask)) &&& ~~~mask =
      ctMark &&& ~~~mask := by
  apply BitVec.eq_of_getLsbD_eq
  intro bit bound
  simp only [BitVec.getLsbD_and, BitVec.getLsbD_or, BitVec.getLsbD_not, bound,
    decide_true, Bool.true_and]
  cases mask.getLsbD bit <;> simp

/-- An action id that fits its field is written inside the daemon's mask. -/
theorem encodeAction_foreign {actionId : Nat}
    (bound : actionId ≤ layout.maxActionId) (mark : Mark) :
    (layout.encodeAction actionId).apply mark &&& ~~~layout.qfMask =
      mark &&& ~~~layout.qfMask := by
  have fits := lt_of_le_maxActionId bound
  apply BitVec.eq_of_getLsbD_eq
  intro bit inWord
  rw [BitVec.getLsbD_and, BitVec.getLsbD_and, BitVec.getLsbD_not]
  cases own : layout.qfMask.getLsbD bit with
  | true => simp
  | false =>
      have outside : layout.actionMask.getLsbD bit = false := by
        simp only [Layout.qfMask, BitVec.getLsbD_or, Bool.or_eq_false_iff]
          at own
        exact own.2
      have notWritten : (BitVec.ofNat 32 actionId <<<
          layout.actionShift).getLsbD bit = false := by
        rw [BitVec.getLsbD_shiftLeft, BitVec.getLsbD_ofNat]
        by_cases below : bit < layout.actionShift
        · simp [below]
        · have above : layout.actionBits ≤ bit - layout.actionShift := by
            rw [Layout.getLsbD_actionMask] at outside
            simp only [inWord, decide_true, Bool.true_and,
              Bool.and_eq_false_iff, decide_eq_false_iff_not] at outside
            omega
          have high : actionId.testBit (bit - layout.actionShift) = false :=
            Nat.testBit_lt_two_pow (Nat.lt_of_lt_of_le fits
              (Nat.pow_le_pow_right (by omega) above))
          simp [high]
      simp only [Layout.encodeAction, MaskedWrite.apply, BitVec.getLsbD_or,
        BitVec.getLsbD_and, BitVec.getLsbD_not, outside, notWritten, inWord,
        decide_true, Bool.not_false, Bool.and_true, Bool.or_false]

/-- The daemon's bits of a packet's verdict replace those of the connection.
Nothing else of either mark changes, and the fast path drops the packets of
connections classified as blocked. -/
theorem rendered_table_marks (accepted : layout.validate = .ok ())
    (skb : Skb) :
    let table := renderTable parseAddr layout queues bindings
    let first := runHook ruleMeaning table .forward skb
    let second := runHook ruleMeaning table .forwardVerdict skb
    (second.2.ctMark =
        if (layout.decode skb.mark).classified then
          (skb.ctMark &&& ~~~layout.qfMask) ||| (skb.mark &&& layout.qfMask)
        else skb.ctMark) ∧
      second.2.ctMark &&& ~~~layout.qfMask =
        skb.ctMark &&& ~~~layout.qfMask ∧
      second.2.mark = skb.mark ∧
      first.2.ctMark = skb.ctMark ∧
      ((∀ binding ∈ bindings, binding.actionId ≤ layout.maxActionId) →
        first.2.mark &&& ~~~layout.qfMask = skb.mark &&& ~~~layout.qfMask) ∧
      (first.1 = .accept → first.2 = skb) ∧
      (first.1 = .drop ↔ (layout.decode skb.ctMark).classified = true ∧
        (layout.decode skb.ctMark).block = true) := by
  intro table first second
  have valid := Layout.valid_of_validate accepted
  have persists : second.2.ctMark =
      if (layout.decode skb.mark).classified then
        (skb.ctMark &&& ~~~layout.qfMask) ||| (skb.mark &&& layout.qfMask)
      else skb.ctMark := by
    rw [show second = _ from runHook_forwardVerdict skb, verdictChain,
      hasAll_classifiedMask valid, persistChain_eq]
  have forward : first = _ := runHook_forward skb
  rw [hasAll_both valid, hasAll_classifiedMask valid] at forward
  refine ⟨persists, ?_, ?_, ?_, ?_, ?_, ?_⟩
  · rw [persists]
    split
    · rw [merge_foreign]
    · rfl
  · rw [show second = _ from runHook_forwardVerdict skb]
  · rw [forward]
    split_ifs <;> first | rfl | (split <;> rfl)
  · intro bounds
    rw [forward]
    split_ifs <;> try rfl
    split
    · rename_i binding found
      exact encodeAction_foreign
        (bounds binding (List.mem_of_find?_eq_some found)) skb.mark
    · rfl
  · intro accepts
    rw [forward] at accepts ⊢
    split_ifs at accepts ⊢ <;> try rfl
    split at accepts
    · cases accepts
    · rfl
  · rw [forward, ← Bool.and_eq_true]
    split_ifs with blocked
    · simp [blocked]
    · simp [blocked]
    · split <;> simp [blocked]
    · simp [blocked]

end Table

theorem sitePolicy_marks :
    (runHook ruleMeaning
        (renderTable siteAddr .default ⟨100, 4, .failOpen⟩ sitePolicy.bindings)
        .forwardVerdict (sitePacket 0x80000005#32)).2.ctMark =
      0x80000000#32 :=
  (rendered_table_marks rfl (sitePacket 0x80000005#32)).1.trans
    (by decide +kernel)

end QuartzFire.AppControl
