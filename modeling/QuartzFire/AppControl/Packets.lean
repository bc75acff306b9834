import QuartzFire.Foundation.BoundedRead

/-!
# Parsing queued packets

A packet starts at its IP header.  The parser finds the TCP or UDP header
behind an IPv4 header, or behind a bounded number of IPv6 extension headers, and
reads the service tuple there.
-/

namespace QuartzFire.AppControl.Pkt

open Read

structure Ipv4Addr where
  a : UInt8
  b : UInt8
  c : UInt8
  d : UInt8
  deriving DecidableEq

inductive IpAddr where
  | v4 (addr : Ipv4Addr)
  | v6 (octets : { octets : Bytes // octets.length = 16 })
  deriving DecidableEq

structure FiveTuple where
  proto : UInt8
  src : IpAddr
  dst : IpAddr
  srcPort : UInt16
  dstPort : UInt16
  deriving DecidableEq

structure Parsed where
  tuple : FiveTuple
  /-- 0 for UDP, as the sequence numbers. -/
  tcpFlags : UInt8
  tcpSeq : UInt32
  tcpAck : UInt32
  deriving DecidableEq

def ipprotoTcp : UInt8 := 6

def ipprotoUdp : UInt8 := 17

namespace Parsed

def isTcp (parsed : Parsed) : Bool := parsed.tuple.proto == ipprotoTcp

def tcpSyn (parsed : Parsed) : Bool := parsed.tcpFlags &&& 0x02 != 0

def tcpAckFlag (parsed : Parsed) : Bool := parsed.tcpFlags &&& 0x10 != 0

end Parsed

section Parser

variable (buf : List UInt8)

/-- `try_from`, which refuses other lengths. -/
def ipv6 (octets : Bytes) : Read IpAddr :=
  if sixteen : octets.length = 16 then .ok (.v6 ⟨octets, sixteen⟩) else reject

def ipv4 (index : Nat) : Read IpAddr := do
  return .v4 ⟨← byte buf index, ← byte buf (index + 1),
    ← byte buf (index + 2), ← byte buf (index + 3)⟩

def parseTcp (l4Off : Nat) (src dst : IpAddr) : Read Parsed := do
  require (l4Off + 20 ≤ buf.length)
  let srcPort ← word16 buf l4Off
  let dstPort ← word16 buf (l4Off + 2)
  let seq ← word32 buf (l4Off + 4)
  let ack ← word32 buf (l4Off + 8)
  let flags ← byte buf (l4Off + 13)
  return ⟨⟨ipprotoTcp, src, dst, srcPort, dstPort⟩, flags, seq, ack⟩

def parseUdp (l4Off : Nat) (src dst : IpAddr) : Read Parsed := do
  require (l4Off + 8 ≤ buf.length)
  let srcPort ← word16 buf l4Off
  let dstPort ← word16 buf (l4Off + 2)
  return ⟨⟨ipprotoUdp, src, dst, srcPort, dstPort⟩, 0, 0, 0⟩

def parseL4 (l4Off : Nat) (proto : UInt8) (src dst : IpAddr) : Read Parsed :=
  if proto = ipprotoTcp then parseTcp buf l4Off src dst
  else if proto = ipprotoUdp then parseUdp buf l4Off src dst
  else reject

def parseV4 : Read Parsed := do
  require (20 ≤ buf.length)
  let first ← byte buf 0
  let ihl := (first &&& 0x0f).toNat * 4
  require (20 ≤ ihl ∧ ihl ≤ buf.length)
  let proto ← byte buf 9
  -- What is not the first fragment has no header of the upper layer.
  let fragment ← word16 buf 6
  require (fragment &&& 0x1fff = 0)
  let src ← ipv4 buf 12
  let dst ← ipv4 buf 16
  parseL4 buf ihl proto src dst

/-- Hop-by-hop, routing and destination options. -/
def isExtension (next : UInt8) : Bool := next = 0 || next = 43 || next = 60

/-- The loop over the extension headers, with the turns it may still take. -/
def walkV6 (src dst : IpAddr) : Nat → UInt8 → Nat → Read Parsed
  | 0, _, _ => reject
  | turns + 1, next, off =>
      if next = ipprotoTcp ∨ next = ipprotoUdp then
        parseL4 buf off next src dst
      else if isExtension next = true then do
        require (off + 2 ≤ buf.length)
        let units ← byte buf (off + 1)
        let following ← byte buf off
        walkV6 src dst turns following (off + (units.toNat + 1) * 8)
      else reject

def parseV6 : Read Parsed := do
  require (40 ≤ buf.length)
  let next ← byte buf 6
  let source ← slice buf 8 24
  let src ← ipv6 source
  let target ← slice buf 24 40
  let dst ← ipv6 target
  walkV6 buf src dst 8 next 40

def parse : Read Parsed :=
  match buf[0]? with
  | none => reject
  | some (first : UInt8) =>
      if first >>> 4 = 4 then parseV4 buf
      else if first >>> 4 = 6 then parseV6 buf
      else reject

/-! ## What the formats say -/

def Word16 (index : Nat) (value : UInt16) : Prop :=
  ∃ high low, buf[index]? = some high ∧ buf[index + 1]? = some low ∧
    value = be16 high low

def Word32 (index : Nat) (value : UInt32) : Prop :=
  ∃ first second third fourth, buf[index]? = some first ∧
    buf[index + 1]? = some second ∧ buf[index + 2]? = some third ∧
      buf[index + 3]? = some fourth ∧ value = be32 first second third fourth

/-- The address of IPv4 at an index. -/
def AddrV4 (index : Nat) (addr : IpAddr) : Prop :=
  ∃ a b c d, buf[index]? = some a ∧ buf[index + 1]? = some b ∧
    buf[index + 2]? = some c ∧ buf[index + 3]? = some d ∧
      addr = .v4 ⟨a, b, c, d⟩

/-- The address of IPv6 at an index. -/
def AddrV6 (index : Nat) (addr : IpAddr) : Prop :=
  ∃ octets, octets.val = (buf.drop index).take 16 ∧ addr = .v6 octets

/-- A header of TCP or UDP at an index, with what is read of it. -/
structure Upper (l4 : Nat) (parsed : Parsed) : Prop where
  srcPort : Word16 buf l4 parsed.tuple.srcPort
  dstPort : Word16 buf (l4 + 2) parsed.tuple.dstPort
  fields : (parsed.tuple.proto = ipprotoTcp ∧ l4 + 20 ≤ buf.length ∧
      Word32 buf (l4 + 4) parsed.tcpSeq ∧ Word32 buf (l4 + 8) parsed.tcpAck ∧
        buf[l4 + 13]? = some parsed.tcpFlags) ∨
    (parsed.tuple.proto = ipprotoUdp ∧ l4 + 8 ≤ buf.length ∧
      parsed.tcpSeq = 0 ∧ parsed.tcpAck = 0 ∧ parsed.tcpFlags = 0)

/-- A number of extension headers lead from one header to another. -/
inductive Extends : Nat → UInt8 → Nat → UInt8 → Nat → Prop where
  | none (next : UInt8) (off : Nat) : Extends 0 next off next off
  | past {count off l4 : Nat} {next following units proto : UInt8} :
      isExtension next = true → buf[off]? = some following →
      buf[off + 1]? = some units →
      Extends count following (off + (units.toNat + 1) * 8) proto l4 →
      Extends (count + 1) next off proto l4

def Version (version : UInt8) : Prop :=
  ∃ first : UInt8, buf[0]? = some first ∧ first >>> 4 = version

/-- An unfragmented header of IPv4 before the upper layer's. -/
structure LocatesV4 (parsed : Parsed) (l4 : Nat) : Prop where
  version : Version buf 4
  whole : 20 ≤ l4 ∧ l4 ≤ buf.length
  length : ∃ first : UInt8, buf[0]? = some first ∧
    l4 = (first &&& 0x0f).toNat * 4
  proto : buf[9]? = some parsed.tuple.proto
  unfragmented : ∃ fragment, Word16 buf 6 fragment ∧ fragment &&& 0x1fff = 0
  src : AddrV4 buf 12 parsed.tuple.src
  dst : AddrV4 buf 16 parsed.tuple.dst

/-- A header of IPv6 and fewer than eight extension headers. -/
structure LocatesV6 (parsed : Parsed) (l4 : Nat) : Prop where
  version : Version buf 6
  whole : 40 ≤ buf.length
  proto : ∃ next count, buf[6]? = some next ∧ count < 8 ∧
    Extends buf count next 40 parsed.tuple.proto l4
  src : AddrV6 buf 8 parsed.tuple.src
  dst : AddrV6 buf 24 parsed.tuple.dst

/-- The packet is what the formats say of the buffer. -/
def Describes (parsed : Parsed) : Prop :=
  ∃ l4, (LocatesV4 buf parsed l4 ∨ LocatesV6 buf parsed l4) ∧
    Upper buf l4 parsed

end Parser

/-! ## The parser reads what the formats say -/

section Reading

variable {buf : List UInt8} {src dst : IpAddr}

/-- What the reader of an upper header finds for the header before it. -/
structure Carries (buf : List UInt8) (l4 : Nat) (proto : UInt8)
    (src dst : IpAddr) (parsed : Parsed) : Prop where
  proto_eq : parsed.tuple.proto = proto
  src_eq : parsed.tuple.src = src
  dst_eq : parsed.tuple.dst = dst
  upper : Upper buf l4 parsed

theorem parseTcp_gives (l4 : Nat) :
    Gives (parseTcp buf l4 src dst)
      (Carries buf l4 ipprotoTcp src dst) := by
  refine ((Gives.require (l4 + 20 ≤ buf.length)).bind fun _ whole =>
    (Gives.word16 (by omega)).bind fun srcPort _ =>
      (Gives.word16 (by omega)).bind fun dstPort _ =>
        (Gives.word32 (by omega)).bind fun seq _ =>
          (Gives.word32 (by omega)).bind fun ack _ =>
            (Gives.byte (by omega)).bind fun flags _ =>
              .pure _).congr fun parsed => ?_
  constructor
  · rintro ⟨_, whole, srcPort, fromPort, dstPort, toPort, seq, sequence, ack,
      acknowledged, flags, flagged, rfl⟩
    exact ⟨rfl, rfl, rfl, fromPort, toPort,
      .inl ⟨rfl, whole, sequence, acknowledged, flagged⟩⟩
  · intro carries
    obtain ⟨proto, rfl, rfl, fromPort, toPort, fields⟩ := carries
    rcases fields with ⟨_, whole, sequence, acknowledged, flagged⟩ | ⟨other, _⟩
    · refine ⟨(), whole, _, fromPort, _, toPort, _, sequence, _, acknowledged,
        _, flagged, ?_⟩
      rw [← proto]
    · rw [proto] at other
      cases other

theorem parseUdp_gives (l4 : Nat) :
    Gives (parseUdp buf l4 src dst)
      (Carries buf l4 ipprotoUdp src dst) := by
  refine ((Gives.require (l4 + 8 ≤ buf.length)).bind fun _ whole =>
    (Gives.word16 (by omega)).bind fun srcPort _ =>
      (Gives.word16 (by omega)).bind fun dstPort _ => .pure _).congr
        fun parsed => ?_
  constructor
  · rintro ⟨_, whole, srcPort, fromPort, dstPort, toPort, rfl⟩
    exact ⟨rfl, rfl, rfl, fromPort, toPort, .inr ⟨rfl, whole, rfl, rfl, rfl⟩⟩
  · obtain ⟨tuple, flags, seq, ack⟩ := parsed
    intro carries
    obtain ⟨proto, rfl, rfl, fromPort, toPort, fields⟩ := carries
    rcases fields with ⟨other, _⟩ | ⟨_, whole, rfl, rfl, rfl⟩
    · rw [proto] at other
      cases other
    · refine ⟨(), whole, _, fromPort, _, toPort, ?_⟩
      rw [← proto]

theorem Carries.proto_cases {l4 : Nat} {proto : UInt8} {parsed : Parsed}
    (carries : Carries buf l4 proto src dst parsed) :
    proto = ipprotoTcp ∨ proto = ipprotoUdp := by
  rw [← carries.proto_eq]
  exact carries.upper.fields.imp And.left And.left

theorem parseL4_gives (l4 : Nat) (proto : UInt8) :
    Gives (parseL4 buf l4 proto src dst) (Carries buf l4 proto src dst) := by
  unfold parseL4
  by_cases tcp : proto = ipprotoTcp
  · rw [if_pos tcp, tcp]
    exact parseTcp_gives l4
  · rw [if_neg tcp]
    by_cases udp : proto = ipprotoUdp
    · rw [if_pos udp, udp]
      exact parseUdp_gives l4
    · rw [if_neg udp]
      refine Gives.reject.congr fun parsed => ⟨False.elim, fun carries => ?_⟩
      exact carries.proto_cases.elim tcp udp

theorem ipv4_gives {index : Nat} (inside : index + 4 ≤ buf.length) :
    Gives (ipv4 buf index) (AddrV4 buf index) := by
  refine ((Gives.byte (by omega)).bind fun a _ =>
    (Gives.byte (by omega)).bind fun b _ =>
      (Gives.byte (by omega)).bind fun c _ =>
        (Gives.byte (by omega)).bind fun d _ => .pure _).congr fun addr => ?_
  simp only [AddrV4, exists_and_left]

theorem ipv6_gives {octets : Bytes} (sixteen : octets.length = 16) :
    Gives (ipv6 octets) (fun addr =>
      ∃ held : { octets : Bytes // octets.length = 16 },
        held.val = octets ∧ addr = .v6 held) := by
  rw [ipv6, dif_pos sixteen]
  refine (Gives.pure _).congr fun addr => ?_
  constructor
  · intro same
    exact ⟨⟨octets, sixteen⟩, rfl, same⟩
  · rintro ⟨held, rfl, same⟩
    exact same

theorem addrV6_gives {first last : Nat} (sixteen : last = first + 16)
    (inside : last ≤ buf.length) :
    Gives (slice buf first last >>= ipv6) (AddrV6 buf first) := by
  subst sixteen
  refine ((Gives.slice inside).bind fun octets cut => ipv6_gives ?_).congr
    fun addr => ?_
  · rw [cut, List.length_take, List.length_drop]
    omega
  · rw [Nat.add_sub_cancel_left, exists_eq_left, AddrV6]

theorem parseV4_gives (version : Version buf 4) :
    Gives (parseV4 buf) (fun parsed =>
      ∃ l4, LocatesV4 buf parsed l4 ∧ Upper buf l4 parsed) := by
  refine ((Gives.require (20 ≤ buf.length)).bind fun _ whole =>
    (Gives.byte (by omega)).bind fun first _ =>
      (Gives.require _).bind fun _ _ =>
        (Gives.byte (by omega)).bind fun proto _ =>
          (Gives.word16 (by omega)).bind fun fragment _ =>
            (Gives.require _).bind fun _ _ =>
              (ipv4_gives (by omega)).bind fun src _ =>
                (ipv4_gives (by omega)).bind fun dst _ =>
                  parseL4_gives _ proto).congr fun parsed => ?_
  constructor
  · rintro ⟨_, whole, first, begins, _, bounds, proto, named, fragment, placed,
      _, alone, src, from', dst, to', carries⟩
    obtain ⟨rfl, rfl, rfl, upper⟩ := carries
    exact ⟨_, ⟨version, bounds, ⟨first, begins, rfl⟩, named,
      ⟨fragment, placed, alone⟩, from', to'⟩, upper⟩
  · rintro ⟨l4, ⟨_, bounds, ⟨first, begins, rfl⟩, named,
      ⟨fragment, placed, alone⟩, from', to'⟩, upper⟩
    exact ⟨(), by omega, first, begins, (), bounds, _, named, fragment, placed,
      (), alone, _, from', _, to', rfl, rfl, rfl, upper⟩

/-- The induction is on the turns left, each of which passes one header. -/
theorem walkV6_gives (turns : Nat) (next : UInt8) (off : Nat) :
    Gives (walkV6 buf src dst turns next off) (fun parsed =>
      ∃ count l4, count < turns ∧
        Extends buf count next off parsed.tuple.proto l4 ∧
          Carries buf l4 parsed.tuple.proto src dst parsed) := by
  induction turns generalizing next off with
  | zero =>
      refine Gives.reject.congr fun parsed => ⟨False.elim, ?_⟩
      rintro ⟨count, l4, few, _⟩
      exact Nat.not_lt_zero count few
  | succ turns ih =>
      rw [walkV6]
      by_cases upper : next = ipprotoTcp ∨ next = ipprotoUdp
      · rw [if_pos upper]
        refine (parseL4_gives off next).congr fun parsed => ?_
        constructor
        · intro carries
          refine ⟨0, off, Nat.succ_pos turns, ?_, ?_⟩
          · rw [carries.proto_eq]
            exact .none next off
          · rw [carries.proto_eq]
            exact carries
        · rintro ⟨count, l4, _, extends', carries⟩
          cases extends' with
          | none => exact carries
          | past extension =>
              rcases upper with rfl | rfl <;> cases extension
      · rw [if_neg upper]
        by_cases extension : isExtension next = true
        · rw [if_pos extension]
          refine ((Gives.require (off + 2 ≤ buf.length)).bind fun _ inside =>
            (Gives.byte (by omega)).bind fun units _ =>
              (Gives.byte (by omega)).bind fun following _ =>
                ih following _).congr fun parsed => ?_
          constructor
          · rintro ⟨_, _, units, long, following, named, count, l4, few,
              extends', carries⟩
            exact ⟨count + 1, l4, Nat.succ_lt_succ few,
              .past extension named long extends', carries⟩
          · rintro ⟨count, l4, few, extends', carries⟩
            cases extends' with
            | none => exact absurd carries.proto_cases upper
            | past _ named long extends' =>
                have inside := (List.getElem?_eq_some_iff.mp long).1
                exact ⟨(), by omega, _, long, _, named, _, l4, by omega,
                  extends', carries⟩
        · rw [if_neg extension]
          refine Gives.reject.congr fun parsed => ⟨False.elim, ?_⟩
          rintro ⟨count, l4, _, extends', carries⟩
          cases extends' with
          | none => exact upper carries.proto_cases
          | past passes => exact extension passes

theorem parseV6_gives (version : Version buf 6) :
    Gives (parseV6 buf) (fun parsed =>
      ∃ l4, LocatesV6 buf parsed l4 ∧ Upper buf l4 parsed) := by
  have flat : parseV6 buf = (do
      require (40 ≤ buf.length)
      let next ← byte buf 6
      let src ← slice buf 8 24 >>= ipv6
      let dst ← slice buf 24 40 >>= ipv6
      walkV6 buf src dst 8 next 40) := by
    simp only [parseV6, bind_assoc]
  rw [flat]
  refine ((Gives.require (40 ≤ buf.length)).bind fun _ whole =>
    (Gives.byte (by omega)).bind fun next _ =>
      (addrV6_gives rfl (by omega)).bind fun src _ =>
        (addrV6_gives rfl (by omega)).bind fun dst _ =>
          walkV6_gives 8 next 40).congr fun parsed => ?_
  constructor
  · rintro ⟨_, whole, next, begins, src, from', dst, to', count, l4, few,
      extends', _, rfl, rfl, upper⟩
    exact ⟨l4, ⟨version, whole, ⟨next, count, begins, few, extends'⟩, from',
      to'⟩, upper⟩
  · rintro ⟨l4, ⟨_, whole, ⟨next, count, begins, few, extends'⟩, from', to'⟩,
      upper⟩
    exact ⟨(), whole, next, begins, _, from', _, to', count, l4, few, extends',
      rfl, rfl, rfl, upper⟩

theorem Version.unique {first : UInt8} (begins : buf[0]? = some first)
    {version : UInt8} (states : Version buf version) :
    first >>> 4 = version := by
  obtain ⟨other, found, states⟩ := states
  rw [begins] at found
  cases found
  exact states

/-- No buffer makes the parser panic, and it takes exactly what the formats
describe. -/
theorem parse_gives (buf : List UInt8) :
    Gives (parse buf) (Describes buf) := by
  unfold parse
  cases begins : buf[0]? with
  | none =>
      refine Gives.reject.congr fun parsed => ⟨False.elim, ?_⟩
      rintro ⟨l4, located | located, _⟩
      · obtain ⟨first, found, _⟩ := located.version
        rw [begins] at found
        cases found
      · obtain ⟨first, found, _⟩ := located.version
        rw [begins] at found
        cases found
  | some first =>
      dsimp only
      by_cases four : first >>> 4 = 4
      · rw [if_pos four]
        refine (parseV4_gives ⟨first, begins, four⟩).congr fun parsed => ?_
        constructor
        · rintro ⟨l4, located, upper⟩
          exact ⟨l4, .inl located, upper⟩
        · rintro ⟨l4, located | located, upper⟩
          · exact ⟨l4, located, upper⟩
          · have six := located.version.unique begins
            rw [four] at six
            cases six
      · rw [if_neg four]
        by_cases six : first >>> 4 = 6
        · rw [if_pos six]
          refine (parseV6_gives ⟨first, begins, six⟩).congr fun parsed => ?_
          constructor
          · rintro ⟨l4, located, upper⟩
            exact ⟨l4, .inr located, upper⟩
          · rintro ⟨l4, located | located, upper⟩
            · exact absurd (located.version.unique begins) four
            · exact ⟨l4, located, upper⟩
        · rw [if_neg six]
          refine Gives.reject.congr fun parsed => ⟨False.elim, ?_⟩
          rintro ⟨l4, located | located, _⟩
          · exact four (located.version.unique begins)
          · exact six (located.version.unique begins)

end Reading

end QuartzFire.AppControl.Pkt
