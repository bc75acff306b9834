import QuartzFire.Foundation.Text

/-!
# Packet filter matches

A match is a list of statements about a packet, written one after another, all
of which must hold.  What an address, a port or a protocol text denotes is left
open.  Requirements that ask each part of a packet for itself describe the same
packets only if they agree part by part, or describe none.
-/

namespace QuartzFire.Nft

/-! ## Packets -/

inductive ConnState where
  | new
  | established
  | related
  | invalid
  deriving DecidableEq, Repr

def ConnState.text : ConnState → String
  | .new => "new"
  | .established => "established"
  | .related => "related"
  | .invalid => "invalid"

structure Transport where
  protocol : Nat
  sport : Nat
  dport : Nat
  /-- The TCP flags that are set. -/
  flags : List String
  deriving DecidableEq

/-- A packet of the IPv4 chains; `Rest` is whatever else it carries. -/
structure Packet (Addr Rest : Type) where
  /-- `none` for traffic the box originates. -/
  inbound : Option String
  /-- `none` for traffic to the box, and before routing. -/
  outbound : Option String
  source : Addr
  destination : Addr
  transport : Transport
  state : ConnState
  rest : Rest
  deriving DecidableEq

def tcp : Nat := 6

def udp : Nat := 17

/-! ## Statements -/

inductive Key where
  | iifname
  | oifname
  | ipSaddr
  | ipDaddr
  | l4proto
  | tcpDport
  | udpDport
  | thDport
  deriving DecidableEq, Repr

inductive Operand where
  | one (text : String)
  | other (text : String)
  | set (texts : List String)
  deriving DecidableEq, Repr

structure Statement where
  key : Key
  operand : Operand
  deriving DecidableEq, Repr

abbrev Match := List Statement

def Key.text : Key → String
  | .iifname => "iifname"
  | .oifname => "oifname"
  | .ipSaddr => "ip saddr"
  | .ipDaddr => "ip daddr"
  | .l4proto => "meta l4proto"
  | .tcpDport => "tcp dport"
  | .udpDport => "udp dport"
  | .thDport => "th dport"

/-- Interface names stand in quotes. -/
def Key.quote (key : Key) (text : String) : String :=
  match key with
  | .iifname | .oifname => "\"" ++ text ++ "\""
  | _ => text

def Operand.text (key : Key) : Operand → String
  | .one text => key.quote text
  | .other text => "!= " ++ key.quote text
  | .set texts =>
      "\x7b " ++ String.intercalate ", " (texts.map key.quote) ++ " \x7d"

def Statement.text (statement : Statement) : String :=
  statement.key.text ++ " " ++ statement.operand.text statement.key

def Match.text (parts : Match) : String :=
  String.intercalate " " (parts.map Statement.text)

theorem text_ne_empty (statement : Statement) : statement.text ≠ "" := by
  intro empty
  have characters := congrArg String.toList empty
  cases keyed : statement.key <;>
    simp [Statement.text, Key.text, keyed] at characters

theorem text_eq_empty {expr : Match} : expr.text = "" ↔ expr = [] := by
  unfold Match.text
  cases expr with
  | nil => simp
  | cons first rest =>
      simp only [List.map_cons, reduceCtorEq, iff_false]
      cases rest with
      | nil => simpa using text_ne_empty first
      | cons second rest =>
          rw [List.map_cons, String.intercalate_cons_cons]
          intro empty
          have characters := congrArg String.toList empty
          simp at characters

/-! ## What the texts denote -/

structure Denotation (Addr : Type) where
  /-- An address, a prefix or a range. -/
  address : String → Addr → Bool
  interface : String → String → Bool
  port : String → Nat → Bool
  protocol : String → Nat → Bool
  port_number : ∀ number named,
    port (toString number) named = true ↔ named = number
  protocol_tcp : ∀ number, protocol "tcp" number = true ↔ number = tcp
  protocol_udp : ∀ number, protocol "udp" number = true ↔ number = udp

/-- Addresses and ports stand for themselves. -/
def plainDenotation : Denotation String where
  address := fun text address => text = address
  interface := fun text name => text = name
  port := fun text port => text = toString port
  protocol := fun text number =>
    (text = "tcp" && number = tcp) || (text = "udp" && number = udp)
  port_number := by
    intro number named
    rw [decide_eq_true_iff]
    exact ⟨fun same => (toString_injective same).symm, fun same => by rw [same]⟩
  protocol_tcp := by simp
  protocol_udp := by simp

def httpPacket : Packet String Unit where
  inbound := some "eth1"
  outbound := some "eth0"
  source := "10.0.0.2"
  destination := "192.0.2.1"
  transport := ⟨tcp, 40000, 80, []⟩
  state := .new
  rest := ()

section Meaning

variable {Addr Rest : Type} (denotes : Denotation Addr)

/-- What a key asks for before its operand is looked at. -/
def Key.applies (packet : Packet Addr Rest) : Key → Bool
  | .tcpDport => packet.transport.protocol = tcp
  | .udpDport => packet.transport.protocol = udp
  | _ => true

def Key.reads (packet : Packet Addr Rest) (text : String) : Key → Bool
  | .iifname => packet.inbound.any (denotes.interface text)
  | .oifname => packet.outbound.any (denotes.interface text)
  | .ipSaddr => denotes.address text packet.source
  | .ipDaddr => denotes.address text packet.destination
  | .l4proto => denotes.protocol text packet.transport.protocol
  | .tcpDport | .udpDport | .thDport =>
      denotes.port text packet.transport.dport

def Statement.holds (packet : Packet Addr Rest) (statement : Statement) :
    Bool :=
  statement.key.applies packet && match statement.operand with
    | .one text => statement.key.reads denotes packet text
    | .other text => !statement.key.reads denotes packet text
    | .set texts => texts.any fun text => statement.key.reads denotes packet text

def Match.holds (packet : Packet Addr Rest) (parts : Match) : Bool :=
  parts.all (Statement.holds denotes packet)

@[simp] theorem holds_nil (packet : Packet Addr Rest) :
    Match.holds denotes packet [] = true := rfl

@[simp] theorem holds_cons (packet : Packet Addr Rest) (first : Statement)
    (rest : Match) :
    Match.holds denotes packet (first :: rest) =
      (first.holds denotes packet && Match.holds denotes packet rest) := rfl

@[simp] theorem holds_append (packet : Packet Addr Rest) (left right : Match) :
    Match.holds denotes packet (left ++ right) =
      (Match.holds denotes packet left && Match.holds denotes packet right) :=
  List.all_append

end Meaning

/-! ## Requirements part by part -/

/-- What is asked of each part of a packet. -/
structure Requirement (Addr Rest : Type) where
  inbound : Option String → Prop
  outbound : Option String → Prop
  source : Addr → Prop
  destination : Addr → Prop
  transport : Transport → Prop
  state : ConnState → Prop
  rest : Rest → Prop

namespace Requirement

variable {Addr Rest : Type}

structure Accepts (asks : Requirement Addr Rest) (packet : Packet Addr Rest) :
    Prop where
  inbound : asks.inbound packet.inbound
  outbound : asks.outbound packet.outbound
  source : asks.source packet.source
  destination : asks.destination packet.destination
  transport : asks.transport packet.transport
  state : asks.state packet.state
  rest : asks.rest packet.rest

/-- What is asked of each part entails what is asked by the other. -/
structure Within (asks other : Requirement Addr Rest) : Prop where
  inbound : ∀ name, asks.inbound name → other.inbound name
  outbound : ∀ name, asks.outbound name → other.outbound name
  source : ∀ address, asks.source address → other.source address
  destination : ∀ address,
    asks.destination address → other.destination address
  transport : ∀ header, asks.transport header → other.transport header
  state : ∀ state, asks.state state → other.state state
  rest : ∀ rest, asks.rest rest → other.rest rest

/-- The two ask the same of every part. -/
def Agrees (asks other : Requirement Addr Rest) : Prop :=
  asks.Within other ∧ other.Within asks

/-- No packet meets the requirement. -/
def Unmet (asks : Requirement Addr Rest) : Prop :=
  ∀ packet, ¬ asks.Accepts packet

variable {asks other : Requirement Addr Rest} {packet : Packet Addr Rest}

theorem Within.accepts (within : asks.Within other)
    (accepts : asks.Accepts packet) : other.Accepts packet where
  inbound := within.inbound _ accepts.inbound
  outbound := within.outbound _ accepts.outbound
  source := within.source _ accepts.source
  destination := within.destination _ accepts.destination
  transport := within.transport _ accepts.transport
  state := within.state _ accepts.state
  rest := within.rest _ accepts.rest

/-- Each part of an accepted packet can be exchanged for any other that is
asked for. -/
theorem within_of_accepts
    (wider : ∀ packet, asks.Accepts packet → other.Accepts packet)
    (accepts : asks.Accepts packet) : asks.Within other where
  inbound := fun name asked =>
    (wider { packet with inbound := name }
      { accepts with inbound := asked }).inbound
  outbound := fun name asked =>
    (wider { packet with outbound := name }
      { accepts with outbound := asked }).outbound
  source := fun address asked =>
    (wider { packet with source := address }
      { accepts with source := asked }).source
  destination := fun address asked =>
    (wider { packet with destination := address }
      { accepts with destination := asked }).destination
  transport := fun header asked =>
    (wider { packet with transport := header }
      { accepts with transport := asked }).transport
  state := fun state asked =>
    (wider { packet with state := state }
      { accepts with state := asked }).state
  rest := fun rest asked =>
    (wider { packet with rest := rest } { accepts with rest := asked }).rest

theorem accepts_iff_iff (asks other : Requirement Addr Rest) :
    (∀ packet, asks.Accepts packet ↔ other.Accepts packet) ↔
      asks.Agrees other ∨ (asks.Unmet ∧ other.Unmet) := by
  constructor
  · intro same
    by_cases met : ∃ packet, asks.Accepts packet
    · obtain ⟨packet, accepts⟩ := met
      exact .inl
        ⟨within_of_accepts (fun packet => (same packet).mp) accepts,
          within_of_accepts (fun packet => (same packet).mpr)
            ((same packet).mp accepts)⟩
    · exact .inr ⟨fun packet accepts => met ⟨packet, accepts⟩,
        fun packet accepts => met ⟨packet, (same packet).mpr accepts⟩⟩
  · rintro (⟨within, without⟩ | ⟨unmet, also⟩) packet
    · exact ⟨within.accepts, without.accepts⟩
    · exact iff_of_false (unmet packet) (also packet)

end Requirement

end QuartzFire.Nft
