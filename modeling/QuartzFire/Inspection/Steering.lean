import QuartzFire.Inspection.Render
import QuartzFire.Replication.RuleMatch

/-!
# What is sent to Squid

A packet takes the verdict of the first rule it matches.  Where a match names a
destination port it is not narrowed to TLS, so that other traffic is sent to
Squid as well; where it asks for another protocol it is narrowed to nothing.
-/

namespace QuartzFire.SslInspection

open Nft

/-! ## Protocols a match allows -/

section Protocols

variable {Addr Rest : Type} (denotes : Denotation Addr)

def allowsProtocol (number : Nat) (statement : Statement) : Bool :=
  match statement.key, statement.operand with
  | .l4proto, .one text => denotes.protocol text number
  | .l4proto, .other text => !denotes.protocol text number
  | .l4proto, .set texts => texts.any fun text => denotes.protocol text number
  | .tcpDport, _ => number = tcp
  | .udpDport, _ => number = udp
  | _, _ => true

/-- No protocol meets every statement that asks for one. -/
def Contradictory (parts : Match) : Prop :=
  ∀ number, ∃ statement ∈ parts, allowsProtocol denotes number statement = false

variable {denotes}

theorem allowsProtocol_of_holds {packet : Packet Addr Rest}
    {statement : Statement} (holds : statement.holds denotes packet = true) :
    allowsProtocol denotes packet.transport.protocol statement = true := by
  obtain ⟨key, operand⟩ := statement
  cases key <;> cases operand <;>
    simp_all [Statement.holds, allowsProtocol, Key.applies, Key.reads]

/-- A rule that contradicts itself is met by no packet. -/
theorem Contradictory.not_holds {parts : Match}
    (contradictory : Contradictory denotes parts) (packet : Packet Addr Rest) :
    Match.holds denotes packet parts = false := by
  rw [Bool.eq_false_iff]
  intro holds
  obtain ⟨statement, member, refused⟩ :=
    contradictory packet.transport.protocol
  have allowed := allowsProtocol_of_holds
    (List.all_eq_true.mp holds statement member)
  rw [refused] at allowed
  cases allowed

end Protocols

/-! ## The prerouting chain -/

section Chain

variable {Addr Rest : Type}

/-- The port a packet is redirected to, if any. -/
def prerouting (denotes : Denotation Addr) (isLocal : Addr → Bool)
    (rules : List SteerRule) (packet : Packet Addr Rest) : Option Nat :=
  if isLocal packet.destination then none
  else match rules.find? fun rule => Match.holds denotes packet rule.parts with
    | some ⟨_, .redirect port⟩ => some port
    | some ⟨_, .leave⟩ => none
    | none => none

def redirected (denotes : Denotation Addr) (isLocal : Addr → Bool)
    (model : Model) (found : Matches) (packet : Packet Addr Rest) : Option Nat :=
  if !model.enabled then none
  else prerouting denotes isLocal (steering model found) packet

def IsTls (packet : Packet Addr Rest) : Prop :=
  packet.transport.protocol = tcp ∧ packet.transport.dport = 443

variable {denotes : Denotation Addr} {isLocal : Addr → Bool} {model : Model}
  {found : Matches} {packet : Packet Addr Rest}

theorem holds_tlsPort :
    tlsPort.holds denotes packet = true ↔ IsTls packet := by
  have https : denotes.port "443" packet.transport.dport = true ↔
      packet.transport.dport = 443 := denotes.port_number 443 _
  simp only [tlsPort, Statement.holds, Key.applies, Key.reads,
    Bool.and_eq_true, decide_eq_true_eq, https, IsTls]

theorem holds_steerMatch (expr : Match) :
    Match.holds denotes packet (steerMatch expr) = true ↔
      Match.holds denotes packet expr = true ∧
        (namesPort expr.text = true ∨ IsTls packet) := by
  unfold steerMatch
  by_cases named : namesPort expr.text = true
  · simp [named]
  · simp [named, holds_tlsPort]

/-- What a packet is redirected by: an inspected match and no exception. -/
theorem redirected_eq_some (on : model.enabled = true) {port : Nat} :
    redirected denotes isLocal model found packet = some port ↔
      isLocal packet.destination = false ∧
        (∃ expr ∈ resolvedMatches model found "inspect",
          Match.holds denotes packet (steerMatch expr) = true) ∧
        (∀ expr ∈ resolvedMatches model found "splice",
          ¬ Match.holds denotes packet (steerMatch expr) = true) ∧
        port = model.interceptPort := by
  unfold redirected prerouting steering
  cases spared : isLocal packet.destination with
  | true => simp [on]
  | false =>
      simp only [on, Bool.not_true, Bool.false_eq_true, if_false, true_and,
        List.find?_append, List.find?_map]
      cases excepted : (resolvedMatches model found "splice").find?
          ((fun rule : SteerRule => Match.holds denotes packet rule.parts) ∘
            fun expr => ⟨steerMatch expr, .leave⟩) with
      | some expr =>
          have member := List.mem_of_find?_eq_some excepted
          have holds := List.find?_some excepted
          simp only [Option.map_some, Option.some_or, reduceCtorEq, false_iff,
            not_and]
          intro _ free _
          exact absurd holds (free expr member)
      | none =>
          have free := List.find?_eq_none.mp excepted
          simp only [Option.map_none, Option.none_or]
          cases chosen : (resolvedMatches model found "inspect").find?
              ((fun rule : SteerRule => Match.holds denotes packet rule.parts) ∘
                fun expr => ⟨steerMatch expr,
                  .redirect model.interceptPort⟩) with
          | some expr =>
              have member := List.mem_of_find?_eq_some chosen
              have holds := List.find?_some chosen
              simp only [Option.map_some, Option.some.injEq]
              constructor
              · rintro rfl
                exact ⟨⟨expr, member, holds⟩, free, rfl⟩
              · rintro ⟨_, _, rfl⟩
                rfl
          | none =>
              have unmatched := List.find?_eq_none.mp chosen
              simp only [Option.map_none, reduceCtorEq, false_iff, not_and]
              rintro ⟨expr, member, holds⟩
              exact absurd holds (unmatched expr member)

/-! ## Only TLS, and all of it -/

/-- A packet is redirected to the intercept port, and to no other, if and only
if it is TLS to another box, of an inspected match and of no exception; and no
rule contradicts itself. -/
structure SteersTls (Rest : Type) (denotes : Denotation Addr)
    (isLocal : Addr → Bool) (model : Model) (found : Matches) : Prop where
  redirects : ∀ (packet : Packet Addr Rest) (port : Nat),
    redirected denotes isLocal model found packet = some port ↔
      IsTls packet ∧ isLocal packet.destination = false ∧
        (∃ expr ∈ resolvedMatches model found "inspect",
          Match.holds denotes packet expr = true) ∧
        (∀ expr ∈ resolvedMatches model found "splice",
          ¬ Match.holds denotes packet expr = true) ∧
        port = model.interceptPort
  consistent : ∀ rule ∈ steering model found,
    ¬ Contradictory denotes rule.parts

/-- A match is taken as it is, and allows some protocol; or it allows TCP. -/
def SteerableMatch (denotes : Denotation Addr) (expr : Match) : Prop :=
  if namesPort expr.text then ¬ Contradictory denotes expr
  else ∀ statement ∈ expr, allowsProtocol denotes tcp statement = true

/-- Whatever else an inspected match with a port takes in is taken out again by
an exception with a port. -/
structure Steerable (Rest : Type) (denotes : Denotation Addr)
    (isLocal : Addr → Bool) (model : Model) (found : Matches) : Prop where
  other : ∀ packet : Packet Addr Rest, ¬ IsTls packet →
    isLocal packet.destination = false →
    ∀ expr ∈ resolvedMatches model found "inspect",
      namesPort expr.text = true → Match.holds denotes packet expr = true →
      ∃ exception ∈ resolvedMatches model found "splice",
        namesPort exception.text = true ∧
          Match.holds denotes packet exception = true
  protocols : ∀ action ∈ defaultActions,
    ∀ expr ∈ resolvedMatches model found action, SteerableMatch denotes expr

theorem contradictory_steerMatch (expr : Match) :
    ¬ Contradictory denotes (steerMatch expr) ↔ SteerableMatch denotes expr := by
  unfold SteerableMatch steerMatch
  by_cases named : namesPort expr.text = true
  · rw [if_pos named, if_pos named]
  · rw [if_neg named, if_neg named]
    constructor
    · intro consistent statement member
      by_contra refused
      refine consistent fun number => ?_
      by_cases same : number = tcp
      · exact ⟨statement, by simp [member],
          by rw [same]; exact Bool.eq_false_iff.mpr refused⟩
      · exact ⟨tlsPort, by simp, by simp [allowsProtocol, tlsPort, same]⟩
    · intro allows contradictory
      obtain ⟨statement, member, refused⟩ := contradictory tcp
      rcases List.mem_append.mp member with own | added
      · rw [allows statement own] at refused
        cases refused
      · cases List.mem_singleton.mp added
        simp [allowsProtocol, tlsPort] at refused

theorem consistent_iff_protocols :
    (∀ rule ∈ steering model found, ¬ Contradictory denotes rule.parts) ↔
      ∀ action ∈ defaultActions,
        ∀ expr ∈ resolvedMatches model found action,
          SteerableMatch denotes expr := by
  simp only [steering, defaultActions, List.mem_append, List.mem_map,
    List.mem_cons, List.not_mem_nil, or_false, forall_eq, or_imp,
    forall_and, forall_exists_index, and_imp, forall_apply_eq_imp_iff₂,
    contradictory_steerMatch]
  exact and_comm

theorem holds_steerMatch_tls (tls : IsTls packet) (expr : Match) :
    Match.holds denotes packet (steerMatch expr) = true ↔
      Match.holds denotes packet expr = true := by
  rw [holds_steerMatch, and_iff_left (.inr tls)]

theorem holds_steerMatch_other (other : ¬ IsTls packet) (expr : Match) :
    Match.holds denotes packet (steerMatch expr) = true ↔
      Match.holds denotes packet expr = true ∧ namesPort expr.text = true := by
  rw [holds_steerMatch, or_iff_left other]

/-- Only TLS, and all of it, is sent to Squid if and only if each match is
steerable. -/
theorem steersTls_iff_steerable (denotes : Denotation Addr)
    (isLocal : Addr → Bool) (model : Model) (found : Matches)
    (on : model.enabled = true) :
    SteersTls Rest denotes isLocal model found ↔
      Steerable Rest denotes isLocal model found := by
  constructor
  · intro steers
    refine ⟨?_, consistent_iff_protocols.mp steers.consistent⟩
    intro packet other foreign expr member named holds
    by_contra unexcepted
    have redirects : redirected denotes isLocal model found packet =
        some model.interceptPort := by
      refine (redirected_eq_some on).mpr ⟨foreign, ⟨expr, member, ?_⟩, ?_, rfl⟩
      · exact (holds_steerMatch_other other expr).mpr ⟨holds, named⟩
      · intro exception listed excepted
        obtain ⟨also, port⟩ := (holds_steerMatch_other other exception).mp excepted
        exact unexcepted ⟨exception, listed, port, also⟩
    exact other ((steers.redirects packet _).mp redirects).1
  · intro steerable
    refine ⟨?_, consistent_iff_protocols.mpr steerable.protocols⟩
    intro packet port
    rw [redirected_eq_some on]
    by_cases tls : IsTls packet
    · simp only [holds_steerMatch_tls tls, tls, true_and]
    · simp only [holds_steerMatch_other tls, tls, false_and, iff_false]
      rintro ⟨foreign, ⟨expr, member, holds, named⟩, free, _⟩
      obtain ⟨exception, listed, port, also⟩ :=
        steerable.other packet tls foreign expr member named holds
      exact free exception listed ⟨also, port⟩

end Chain

section Examples

def inspecting : Model :=
  { enabled := true, policies := [{ rule := 20 }] }

/-- A rule for the traffic of one interface. -/
theorem lan_steersTls :
    SteersTls Unit plainDenotation (fun _ => false) inspecting
      [(20, some [⟨.iifname, .one "eth1"⟩])] := by
  have plain : namesPort (Match.text [⟨.iifname, .one "eth1"⟩]) = false := by
    decide +kernel
  refine (steersTls_iff_steerable plainDenotation _ inspecting _ rfl).mpr
    ⟨?_, ?_⟩
  · intro packet _ _ expr member named
    have listed : expr ∈ [[⟨.iifname, .one "eth1"⟩]] := member
    cases List.mem_singleton.mp listed
    rw [plain] at named
    cases named
  · intro action known expr member
    have listed : expr ∈ [[⟨.iifname, .one "eth1"⟩]] := by
      simp only [defaultActions, List.mem_cons, List.not_mem_nil,
        or_false] at known
      rcases known with rfl | rfl
      · exact member
      · cases member
    cases List.mem_singleton.mp listed
    rw [SteerableMatch, plain, if_neg Bool.false_ne_true]
    decide

/-- A rule for TCP to the ports of a group. -/
def webRule : Replication.RuleCfg :=
  ⟨none, none, ⟨none, none, none, none⟩, ⟨none, none, none, some "WEB"⟩,
    some "tcp"⟩

def webGroups : Replication.Groups :=
  [("port-group", [("WEB", [("port", ["80"])])])]

/-- HTTP is sent to Squid as if it were TLS. -/
theorem http_redirected :
    validate inspecting none none = [] ∧
      ruleMatchExpr webRule webGroups = .ok [⟨.tcpDport, .set ["80"]⟩] ∧
      redirected plainDenotation (fun _ => false) inspecting
        [(20, some [⟨.tcpDport, .set ["80"]⟩])] httpPacket = some 3129 ∧
      ¬ SteersTls Unit plainDenotation (fun _ => false) inspecting
        [(20, some [⟨.tcpDport, .set ["80"]⟩])] := by
  have redirects : redirected plainDenotation (fun _ => false) inspecting
      [(20, some [⟨.tcpDport, .set ["80"]⟩])] httpPacket = some 3129 := by
    decide +kernel
  refine ⟨by decide, by rfl, redirects, fun steers => ?_⟩
  have tls := ((steers.redirects httpPacket 3129).mp redirects).1.2
  exact absurd tls (by decide)

end Examples

end QuartzFire.SslInspection
