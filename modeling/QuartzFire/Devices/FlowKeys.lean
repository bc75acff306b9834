import QuartzFire.Devices.ConntrackRead

/-!
# What keys tell apart

Without an entry id at its end a line of an echo is keyed by the identifier of
the reply, and any other by the printed name, the original addresses and the
ports, so echoes with one identifier share a key, as do connections without
ports between the same addresses.
-/

namespace QuartzFire.Devices

/-! ## Which entries share a key -/

/-- Both are echoes with one identifier in the reply, or neither is an echo and
they have the same printed name, original addresses and ports. -/
def Entry.Confused (left right : Entry) : Prop :=
  left.reply.l4.identifier = right.reply.l4.identifier ∧
    (left.reply.l4.identifier = none →
      left.orig.l4.name = right.orig.l4.name ∧
      left.orig.src = right.orig.src ∧ left.orig.dst = right.orig.dst ∧
      left.orig.l4.sport = right.orig.l4.sport ∧
      left.orig.l4.dport = right.orig.l4.dport)

theorem toDigits_injective {left right : Nat}
    (same : Nat.toDigits 10 left = Nat.toDigits 10 right) : left = right := by
  have read := congrArg (fun digits => Nat.ofDigitChars 10 digits 0) same
  simpa using read

theorem not_mem_portText {char : Char} (other : char.isDigit = false)
    (port : Option UInt16) : char ∉ portText port := by
  cases port with
  | none => exact not_mem_digits other 0
  | some port => exact not_mem_digits other port.toNat

theorem portText_injective {left right : Option UInt16}
    (both : left.isSome = right.isSome)
    (same : portText left = portText right) : left = right := by
  cases left with
  | none =>
      rw [Option.isSome_none, eq_comm, Option.isSome_eq_false_iff,
        Option.isNone_iff_eq_none] at both
      exact both.symm
  | some port =>
      obtain ⟨other, rfl⟩ := Option.isSome_iff_exists.mp both.symm
      exact congrArg some (UInt16.toNat_inj.mp (toDigits_injective same))

theorem Address.bar_not_mem (address : Address) : '|' ∉ address.text := by
  intro member
  exact absurd (List.all_eq_true.mp address.plain '|' member) (by decide)

theorem Address.ext' {left right : Address} (same : left.text = right.text) :
    left = right := by
  cases left
  cases right
  cases same
  rfl

theorem bar_not_mem_side (address : Address) (port : Option UInt16) :
    '|' ∉ address.text ++ ':' :: portText port := by
  rw [List.mem_append, List.mem_cons, not_or, not_or]
  exact ⟨address.bar_not_mem, by decide, not_mem_portText rfl port⟩

theorem side_injective {left right : Address} {port port' : Option UInt16}
    (same : left.text ++ ':' :: portText port =
      right.text ++ ':' :: portText port') :
    left = right ∧ portText port = portText port' := by
  obtain ⟨front, back⟩ := rsplitOnce_unique same (not_mem_portText rfl port)
    (not_mem_portText rfl port')
  exact ⟨Address.ext' front, back⟩

theorem tupleKey_eq (proto src sport dst dport : List Char) :
    tupleKey proto src sport dst dport =
      proto ++ '|' :: ((src ++ ':' :: sport) ++
        '|' :: (dst ++ ':' :: dport)) := by
  unfold tupleKey
  rw [List.append_assoc, List.cons_append]

theorem tupleKey_eq_iff (left right : Entry) :
    left.tupleKey = right.tupleKey ↔ left.Confused right := by
  unfold Entry.tupleKey Entry.Confused
  have bar : ∀ (number : Nat) (entry : Entry), Nat.toDigits 10 number ≠
      Devices.tupleKey entry.orig.l4.name entry.orig.src.text
        (portText entry.orig.l4.sport) entry.orig.dst.text
        (portText entry.orig.l4.dport) := by
    intro number entry same
    apply @not_mem_digits '|' rfl number
    rw [same]
    simp [Devices.tupleKey]
  cases first : left.reply.l4.identifier with
  | some id =>
      cases second : right.reply.l4.identifier with
      | some other =>
          simp only [Option.some.injEq, reduceCtorEq, false_implies, and_true]
          exact ⟨toDigits_injective, congrArg _⟩
      | none => simp [bar id right]
  | none =>
      cases second : right.reply.l4.identifier with
      | some other => simp [(bar other left).symm]
      | none =>
          simp only [true_and, forall_const]
          constructor
          · intro same
            rw [tupleKey_eq, tupleKey_eq] at same
            obtain ⟨name, sides⟩ := splitOnce_unique same
              (left.orig.l4.not_mem_name rfl) (right.orig.l4.not_mem_name rfl)
            obtain ⟨source, target⟩ := splitOnce_unique sides
              (bar_not_mem_side _ _) (bar_not_mem_side _ _)
            obtain ⟨src, sport⟩ := side_injective source
            obtain ⟨dst, dport⟩ := side_injective target
            have sports : left.orig.l4.sport.isSome =
                right.orig.l4.sport.isSome := by
              rw [L4.sport_isSome, L4.sport_isSome, name]
            have dports : left.orig.l4.dport.isSome =
                right.orig.l4.dport.isSome := by
              rw [L4.dport_isSome, L4.dport_isSome, sports]
            exact ⟨name, src, dst, portText_injective sports sport,
              portText_injective dports dport⟩
          · rintro ⟨name, src, dst, sport, dport⟩
            rw [name, src, dst, sport, dport]

/-- What two connections in the table differ in: the entry ids, and the
original tuple or the zone. -/
structure Entry.Coexist (left right : Entry) : Prop where
  id : left.id ≠ right.id
  tuple : left.zone ≠ right.zone ∨ left.orig ≠ right.orig

theorem PortProtocol.name_injective {left right : PortProtocol}
    (same : left.name = right.name) : left = right := by
  cases left <;> cases right <;> first | rfl | exact absurd same (by decide)

theorem tuple_eq_of_ported {left right : Tuple}
    (ported : left.l4.sport.isSome = true) (src : left.src = right.src)
    (dst : left.dst = right.dst) (name : left.l4.name = right.l4.name)
    (sport : left.l4.sport = right.l4.sport)
    (dport : left.l4.dport = right.l4.dport) : left = right := by
  obtain ⟨leftSrc, leftDst, first⟩ := left
  obtain ⟨rightSrc, rightDst, second⟩ := right
  cases src
  cases dst
  cases first with
  | ports protocol source target =>
      cases second with
      | ports protocol' source' target' =>
          cases sport
          cases dport
          rw [PortProtocol.name_injective name]
      | _ => cases sport
  | _ => cases ported

/-- In one zone connections with ports are told apart. -/
theorem Entry.Coexist.not_confused {left right : Entry}
    (coexist : left.Coexist right) (zone : left.zone = right.zone)
    (ported : left.orig.l4.sport.isSome = true) : ¬ left.Confused right := by
  rintro ⟨identifier, same⟩
  have plain : left.reply.l4.identifier = none := by
    rw [L4.sport_isSome, left.agree, ← L4.sport_isSome] at ported
    cases reply : left.reply.l4 with
    | ports protocol _ _ => rfl
    | _ =>
        rw [reply] at ported
        cases ported
  obtain ⟨name, src, dst, sport, dport⟩ := same plain
  rcases coexist.tuple with zones | tuples
  · exact zones zone
  · exact tuples (tuple_eq_of_ported ported src dst name sport dport)

/-- Lines of connections with ports in one zone have different keys, whether
they end in an entry id or not. -/
theorem Entry.Coexist.keys_apart {left right : Entry}
    (coexist : left.Coexist right) (zone : left.zone = right.zone)
    (ported : left.orig.l4.sport.isSome = true)
    {feed feed' : Feed} {withId : Bool} {line line' : List Char}
    (isLine : left.IsLine feed withId line)
    (isLine' : right.IsLine feed' withId line') {flow flow' : ParsedFlow}
    (parsed : parseLine line = some flow)
    (parsed' : parseLine line' = some flow') : flow.key ≠ flow'.key := by
  intro same
  obtain ⟨_, read, gives⟩ := isLine.gives
  obtain ⟨_, read', gives'⟩ := isLine'.gives
  cases parsed.symm.trans read
  cases parsed'.symm.trans read'
  rw [gives.key, gives'.key] at same
  cases withId with
  | true => exact coexist.id (toDigits_injective same)
  | false =>
      exact coexist.not_confused zone ported
        ((tupleKey_eq_iff left right).mp same)

/-- Lines of two connections have different keys, and the lines of one have the
same key, addresses, service port and protocol. -/
structure Identified (withId : Bool) (left right : Entry) : Prop where
  parses : ∀ feed line, left.IsLine feed withId line →
    (parseLine line).isSome = true
  apart : left.Coexist right → ∀ feed feed' line line' flow flow',
    left.IsLine feed withId line → right.IsLine feed' withId line' →
      parseLine line = some flow → parseLine line' = some flow' →
        flow.key ≠ flow'.key
  same : ∀ line line' flow flow', left.IsLine .snapshot withId line →
    left.IsLine .destroy withId line' →
      parseLine line = some flow → parseLine line' = some flow' →
        flow.key = flow'.key ∧ flow.origSrc = flow'.origSrc ∧
        flow.origDst = flow'.origDst ∧ flow.dport = flow'.dport ∧
        flow.proto = flow'.proto

theorem identified_iff (withId : Bool) (left right : Entry) :
    Identified withId left right ↔
      (left.Coexist right → withId = false → ¬ left.Confused right) := by
  constructor
  · rintro identified coexist rfl confused
    obtain ⟨line, isLine⟩ := left.exists_line .snapshot false
    obtain ⟨line', isLine'⟩ := right.exists_line .snapshot false
    obtain ⟨flow, parsed, gives⟩ := isLine.gives
    obtain ⟨flow', parsed', gives'⟩ := isLine'.gives
    apply identified.apart coexist _ _ _ _ _ _ isLine isLine' parsed parsed'
    rw [gives.key, gives'.key]
    exact (tupleKey_eq_iff left right).mpr confused
  · intro clear
    constructor
    · intro feed line isLine
      obtain ⟨flow, parsed, -⟩ := isLine.gives
      rw [parsed]
      rfl
    · intro coexist feed feed' line line' flow flow' isLine isLine' parsed
        parsed' same
      obtain ⟨_, read, gives⟩ := isLine.gives
      obtain ⟨_, read', gives'⟩ := isLine'.gives
      cases parsed.symm.trans read
      cases parsed'.symm.trans read'
      rw [gives.key, gives'.key] at same
      cases withId with
      | true => exact coexist.id (toDigits_injective same)
      | false => exact clear coexist rfl ((tupleKey_eq_iff left right).mp same)
    · intro line line' flow flow' isLine isLine' parsed parsed'
      obtain ⟨_, read, gives⟩ := isLine.gives
      obtain ⟨_, read', gives'⟩ := isLine'.gives
      cases parsed.symm.trans read
      cases parsed'.symm.trans read'
      rw [gives.key, gives'.key, gives.origSrc, gives'.origSrc, gives.origDst,
        gives'.origDst, gives.dport, gives'.dport, gives.proto, gives'.proto]
      exact ⟨rfl, rfl, rfl, rfl, rfl⟩

/-! ## Two connections with ports -/

def Address.of (text : String) (plain : text.toList.all isAddressChar = true) :
    Address :=
  ⟨text.toList, plain⟩

/-- A connection to a web server. -/
def webEntry (port : UInt16) : Entry where
  v6 := false
  orig := ⟨.of "10.0.0.5" rfl, .of "1.1.1.1" rfl, .ports .tcp port 443⟩
  reply := ⟨.of "1.1.1.1" rfl, .of "10.0.0.5" rfl, .ports .tcp 443 port⟩
  agree := rfl
  zone := 0
  id := port.toNat

theorem ports_apart :
    ∃ line line' flow flow', parseLine line = some flow ∧
      parseLine line' = some flow' ∧ flow.key ≠ flow'.key := by
  have coexist : (webEntry 40000).Coexist (webEntry 40001) :=
    ⟨by decide, .inr (by decide)⟩
  obtain ⟨line, isLine⟩ := (webEntry 40000).exists_line .snapshot false
  obtain ⟨line', isLine'⟩ := (webEntry 40001).exists_line .destroy false
  obtain ⟨flow, parsed, -⟩ := isLine.gives
  obtain ⟨flow', parsed', -⟩ := isLine'.gives
  exact ⟨line, line', flow, flow', parsed, parsed',
    coexist.keys_apart rfl rfl isLine isLine' parsed parsed'⟩

/-! ## Two pings -/

/-- A ping of one client. -/
def firstPing : Entry where
  v6 := false
  orig := ⟨.of "10.0.0.5" rfl, .of "1.1.1.1" rfl, .echo false 8 0 1⟩
  reply := ⟨.of "1.1.1.1" rfl, .of "10.0.0.5" rfl, .echo false 0 0 1⟩
  agree := rfl
  zone := 0
  id := 101

/-- A ping of another client with the same identifier. -/
def secondPing : Entry where
  v6 := false
  orig := ⟨.of "10.0.0.6" rfl, .of "8.8.8.8" rfl, .echo false 8 0 1⟩
  reply := ⟨.of "8.8.8.8" rfl, .of "10.0.0.6" rfl, .echo false 0 0 1⟩
  agree := rfl
  zone := 0
  id := 102

/-- Two pings that do not have an endpoint in common share a key. -/
theorem pings_share_key :
    ¬ ∀ withId left right, Identified withId left right := by
  intro identified
  have confused : firstPing.Confused secondPing := by
    refine ⟨rfl, ?_⟩
    intro none'
    cases none'
  have coexist : firstPing.Coexist secondPing :=
    ⟨by decide, .inr (by decide)⟩
  obtain ⟨line, isLine⟩ := firstPing.exists_line .snapshot false
  obtain ⟨line', isLine'⟩ := secondPing.exists_line .snapshot false
  obtain ⟨flow, parsed, gives⟩ := isLine.gives
  obtain ⟨flow', parsed', gives'⟩ := isLine'.gives
  apply (identified false firstPing secondPing).apart coexist _ _ _ _ _ _
    isLine isLine' parsed parsed'
  rw [gives.key, gives'.key]
  exact (tupleKey_eq_iff _ _).mpr confused

end QuartzFire.Devices
