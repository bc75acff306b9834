import QuartzFire.AppControl.Packets

/-!
# Resets of blocked flows

A blocked flow of TCP is answered with one RST segment to each end.  Each
segment has to look as if the other end had sent it: its tuple is the flow's or
its reverse, and its sequence number is the one that end expects next.
-/

namespace QuartzFire.AppControl.Reset

open Pkt Read

structure ResetPair where
  toDst : Bytes
  toSrc : Bytes

def octets (addr : Ipv4Addr) : Bytes := [addr.a, addr.b, addr.c, addr.d]

/-- The checksum over the pseudo-header and the segment. -/
def tcpChecksumV4 (src dst : Ipv4Addr) (tcp : Bytes) : UInt16 :=
  checksum (octets src ++ octets dst ++ [0, ipprotoTcp] ++
    bytes16 (UInt16.ofNat tcp.length) ++ tcp)

/-- The IP header with the bytes of its checksum. -/
def ipHeader (src dst : Ipv4Addr) (sum : Bytes) : Bytes :=
  [0x45, 0, 0, 40, 0, 0, 0, 0, 64, ipprotoTcp] ++
    (sum ++ (octets src ++ octets dst))

/-- The TCP header with the bytes of its checksum. -/
def tcpHeader (sport dport : UInt16) (seq : UInt32) (sum : Bytes) : Bytes :=
  (bytes16 sport ++ bytes16 dport ++ bytes32 seq ++
    [0, 0, 0, 0, 0x50, 0x04, 0, 0]) ++ (sum ++ [0, 0])

def buildV4Rst (src dst : Ipv4Addr) (sport dport : UInt16) (seq : UInt32) :
    Bytes :=
  let ipCsum := checksum (ipHeader src dst [0, 0])
  let tcpCsum := tcpChecksumV4 src dst (tcpHeader sport dport seq [0, 0])
  ipHeader src dst (bytes16 ipCsum) ++
    tcpHeader sport dport seq (bytes16 tcpCsum)

def build (p : Pkt.Parsed) : Option ResetPair :=
  match p.tuple.src, p.tuple.dst with
  | .v4 src, .v4 dst =>
      let srcSeq := p.tcpSeq + if p.tcpSyn && !p.tcpAckFlag then 1 else 0
      some
        { toDst := buildV4Rst src dst p.tuple.srcPort p.tuple.dstPort srcSeq
          toSrc := buildV4Rst dst src p.tuple.dstPort p.tuple.srcPort p.tcpAck }
  | _, _ => none

/-! ## What a reset segment says -/

def reverse (tuple : FiveTuple) : FiveTuple :=
  { tuple with
    src := tuple.dst, dst := tuple.src
    srcPort := tuple.dstPort, dstPort := tuple.srcPort }

/-- Both checksums of an unfragmented segment behind a header of 20 bytes. -/
structure Verifies (src dst : Ipv4Addr) (segment : Bytes) : Prop where
  ip : checksum (segment.take 20) = 0
  tcp : tcpChecksumV4 src dst (segment.drop 20) = 0

/-- A bare RST of the flow with a sequence number. -/
structure Resets (segment : Bytes) (tuple : FiveTuple) (seq : UInt32) :
    Prop where
  parses : parse segment =
    .ok { tuple := tuple, tcpFlags := 0x04, tcpSeq := seq, tcpAck := 0 }
  verifies : ∃ src dst, tuple.src = .v4 src ∧ tuple.dst = .v4 dst ∧
    Verifies src dst segment

theorem buildV4Rst_parses (src dst : Ipv4Addr) (sport dport : UInt16)
    (seq : UInt32) :
    parse (buildV4Rst src dst sport dport seq) = .ok
      { tuple := ⟨ipprotoTcp, .v4 src, .v4 dst, sport, dport⟩
        tcpFlags := 0x04, tcpSeq := seq, tcpAck := 0 } := by
  apply ((parse_gives _).exact _).mpr
  refine ⟨20, .inl ?_, ?_⟩
  · exact
      { version := ⟨0x45, rfl, by decide⟩
        whole := ⟨Nat.le_refl 20, Nat.le_of_ble_eq_true rfl⟩
        length := ⟨0x45, rfl, by decide⟩
        proto := rfl
        unfragmented := ⟨0, ⟨0, 0, rfl, rfl, by decide⟩, by decide⟩
        src := ⟨_, _, _, _, rfl, rfl, rfl, rfl, rfl⟩
        dst := ⟨_, _, _, _, rfl, rfl, rfl, rfl, rfl⟩ }
  · exact
      { srcPort := ⟨_, _, rfl, rfl, (be16_bytes sport).symm⟩
        dstPort := ⟨_, _, rfl, rfl, (be16_bytes dport).symm⟩
        fields := .inl ⟨rfl, Nat.le_of_ble_eq_true rfl,
          ⟨_, _, _, _, rfl, rfl, rfl, rfl, (be32_bytes seq).symm⟩,
          ⟨_, _, _, _, rfl, rfl, rfl, rfl, rfl⟩, rfl⟩ }

/-- What the TCP checksum covers before the place it is put in. -/
def coveredByTcp (src dst : Ipv4Addr) (sport dport : UInt16) (seq : UInt32) :
    Bytes :=
  octets src ++ octets dst ++ [0, ipprotoTcp] ++ bytes16 20 ++
    (bytes16 sport ++ bytes16 dport ++ bytes32 seq ++
      [0, 0, 0, 0, 0x50, 0x04, 0, 0])

theorem tcpChecksumV4_tcpHeader (src dst : Ipv4Addr) (sport dport : UInt16)
    (seq : UInt32) (high low : UInt8) :
    tcpChecksumV4 src dst (tcpHeader sport dport seq [high, low]) =
      checksum (coveredByTcp src dst sport dport seq ++
        ([high, low] ++ [0, 0])) := by
  have long : (tcpHeader sport dport seq [high, low]).length = 20 := rfl
  rw [tcpChecksumV4, long, tcpHeader, ← List.append_assoc, coveredByTcp]
  rfl

theorem buildV4Rst_verifies (src dst : Ipv4Addr) (sport dport : UInt16)
    (seq : UInt32) :
    Verifies src dst (buildV4Rst src dst sport dport seq) := by
  constructor
  · exact @checksum_eq_zero [0x45, 0, 0, 40, 0, 0, 0, 0, 64, ipprotoTcp] rfl
      (octets src ++ octets dst)
  · have split : (buildV4Rst src dst sport dport seq).drop 20 =
        tcpHeader sport dport seq
          (bytes16 (tcpChecksumV4 src dst
            (tcpHeader sport dport seq [0, 0]))) := rfl
    have long : (coveredByTcp src dst sport dport seq).length = 28 := rfl
    have even : (coveredByTcp src dst sport dport seq).length % 2 = 0 := by
      rw [long]
    rw [split, bytes16, tcpChecksumV4_tcpHeader, tcpChecksumV4_tcpHeader]
    exact checksum_eq_zero even [0, 0]

theorem buildV4Rst_resets (src dst : Ipv4Addr) (sport dport : UInt16)
    (seq : UInt32) :
    Resets (buildV4Rst src dst sport dport seq)
      ⟨ipprotoTcp, .v4 src, .v4 dst, sport, dport⟩ seq where
  parses := buildV4Rst_parses src dst sport dport seq
  verifies := ⟨src, dst, rfl, rfl, buildV4Rst_verifies src dst sport dport seq⟩

/-! ## What an end of a connection takes -/

/-- An end of an established connection: the number it expects next, and how
many it has room for. -/
structure Endpoint where
  rcvNxt : UInt32
  rcvWnd : UInt32

/-- A segment without data begins where the end can take it. -/
def Endpoint.Expects (endpoint : Endpoint) (seq : UInt32) : Prop :=
  seq = endpoint.rcvNxt ∨ seq - endpoint.rcvNxt < endpoint.rcvWnd

def Endpoint.Accepts (endpoint : Endpoint) (segment : Bytes) : Prop :=
  ∃ reset, parse segment = .ok reset ∧ reset.tcpFlags &&& 0x04 ≠ 0 ∧
    endpoint.Expects reset.tcpSeq

theorem Resets.accepts {segment : Bytes} {tuple : FiveTuple} {seq : UInt32}
    (resets : Resets segment tuple seq) {endpoint : Endpoint}
    (expects : endpoint.Expects seq) : endpoint.Accepts segment :=
  ⟨_, resets.parses, show (0x04 : UInt8) &&& 0x04 ≠ 0 by decide, expects⟩

/-- The packet of the source holds what the source expects next, and begins
where the destination can take it. -/
structure Between (source destination : Endpoint) (parsed : Pkt.Parsed) :
    Prop where
  acknowledges : parsed.tcpAckFlag = true ∧ parsed.tcpAck = source.rcvNxt
  established : parsed.tcpSyn = false
  begins : destination.Expects parsed.tcpSeq

/-- Both segments of a pair reset the flow of a packet. -/
structure Answers (pair : ResetPair) (parsed : Pkt.Parsed) : Prop where
  toDst : Resets pair.toDst parsed.tuple
    (parsed.tcpSeq + if parsed.tcpSyn && !parsed.tcpAckFlag then 1 else 0)
  toSrc : Resets pair.toSrc (reverse parsed.tuple) parsed.tcpAck
  accepted : ∀ source destination, Between source destination parsed →
    destination.Accepts pair.toDst ∧ source.Accepts pair.toSrc

theorem build_answers {parsed : Pkt.Parsed} (tcp : parsed.isTcp = true)
    {pair : ResetPair} (built : build parsed = some pair) :
    Answers pair parsed := by
  obtain ⟨⟨proto, src, dst, srcPort, dstPort⟩, flags, seq, ack⟩ := parsed
  have same : proto = ipprotoTcp := eq_of_beq tcp
  subst same
  unfold build at built
  split at built
  · rename_i source target fromSrc toDst
    simp only at fromSrc toDst
    subst fromSrc toDst
    cases built
    have forth := buildV4Rst_resets source target srcPort dstPort
    have back := buildV4Rst_resets target source dstPort srcPort ack
    refine ⟨forth _, back, fun sender receiver between => ?_⟩
    refine ⟨(forth _).accepts ?_, back.accepts ?_⟩
    · rw [between.established, Bool.false_and, if_neg (by decide),
        UInt32.add_zero]
      exact between.begins
    · exact .inl between.acknowledges.2
  · cases built

theorem build_none_iff (parsed : Pkt.Parsed) :
    build parsed = none ↔ ∀ src dst,
      ¬ (parsed.tuple.src = .v4 src ∧ parsed.tuple.dst = .v4 dst) := by
  unfold build
  split
  · rename_i source target fromSrc toDst
    exact ⟨nofun, fun none' => absurd ⟨fromSrc, toDst⟩ (none' source target)⟩
  · rename_i other
    exact ⟨fun _ src dst both => other src dst both.1 both.2, fun _ => rfl⟩

/-- A buffer with a header of IPv4 gives a pair, one of IPv6 gives none. -/
theorem build_of_version {buf : List UInt8} {parsed : Pkt.Parsed}
    (describes : Describes buf parsed) :
    (Version buf 4 → ∃ pair, build parsed = some pair) ∧
      (Version buf 6 → build parsed = none) := by
  obtain ⟨l4, located | located, _⟩ := describes
  · obtain ⟨a, b, c, d, _, _, _, _, src⟩ := located.src
    obtain ⟨a', b', c', d', _, _, _, _, dst⟩ := located.dst
    constructor
    · intro _
      rw [build, src, dst]
      exact ⟨_, rfl⟩
    · rintro ⟨first, begins, six⟩
      have four := located.version.unique begins
      rw [six] at four
      cases four
  · obtain ⟨octets, _, src⟩ := located.src
    constructor
    · rintro ⟨first, begins, four⟩
      have six := located.version.unique begins
      rw [four] at six
      cases six
    · intro _
      apply (build_none_iff parsed).mpr
      rintro source target ⟨from', _⟩
      rw [src] at from'
      cases from'

/-- The parser takes exactly what the formats describe, and what it takes of TCP
over IPv4 gets two segments that reset the flow. -/
theorem parser_and_resets_agree (buf : List UInt8) :
    parse buf ≠ .error .panic ∧
      ∀ parsed, (parse buf = .ok parsed ↔ Describes buf parsed) ∧
        (parse buf = .ok parsed → parsed.isTcp = true →
          (Version buf 4 →
            ∃ pair, build parsed = some pair ∧ Answers pair parsed) ∧
          (Version buf 6 → build parsed = none)) := by
  obtain ⟨safe, exact'⟩ := parse_gives buf
  refine ⟨safe, fun parsed => ⟨exact' parsed, fun parses tcp => ?_⟩⟩
  obtain ⟨some', none'⟩ := build_of_version ((exact' parsed).mp parses)
  refine ⟨fun four => ?_, none'⟩
  obtain ⟨pair, built⟩ := some' four
  exact ⟨pair, built, build_answers tcp built⟩

/-! ## The payload -/

/-- Where the payload begins by the header of the upper layer. -/
def PayloadAt (buf : List UInt8) (parsed : Pkt.Parsed) (offset : Nat) : Prop :=
  ∃ l4, (LocatesV4 buf parsed l4 ∨ LocatesV6 buf parsed l4) ∧
    Upper buf l4 parsed ∧
    ((parsed.isTcp = true ∧ ∃ words : UInt8, buf[l4 + 12]? = some words ∧
        offset = l4 + (words >>> 4).toNat * 4) ∨
      (parsed.isTcp = false ∧ offset = l4 + 8))

/-- A segment of TCP with that data offset field. -/
def offsetBy (field : UInt8) : Bytes :=
  [0x45, 0, 0, 44, 0, 0, 0, 0, 64, 6, 0, 0, 10, 0, 0, 1, 10, 0, 0, 2,
    4, 210, 1, 187, 0, 0, 3, 232, 0, 0, 19, 136, field, 0x10, 0, 0, 0, 0, 0, 0,
    1, 1, 1, 1]

/-- What the parser gives of it, whatever the field says. -/
def offsetByParsed : Pkt.Parsed :=
  { tuple := ⟨6, .v4 ⟨10, 0, 0, 1⟩, .v4 ⟨10, 0, 0, 2⟩, 1234, 443⟩
    tcpFlags := 0x10, tcpSeq := 1000, tcpAck := 5000 }

theorem parse_offsetBy (field : UInt8) :
    parse (offsetBy field) = .ok offsetByParsed := rfl

theorem payloadAt_offsetBy {field : UInt8} {offset : Nat}
    (located : PayloadAt (offsetBy field) offsetByParsed offset) :
    offset = 20 + (field >>> 4).toNat * 4 := by
  obtain ⟨l4, located | located, _, payload⟩ := located
  · obtain ⟨first, begins, rfl⟩ := located.length
    cases begins
    rcases payload with ⟨_, words, found, rfl⟩ | ⟨other, _⟩
    · cases found
      rfl
    · cases other
  · obtain ⟨first, begins, six⟩ := located.version
    cases begins
    cases six

/-- The value returned does not tell where the payload begins. -/
theorem payload_not_returned :
    ¬ ∃ payloadOffset : Pkt.Parsed → Nat, ∀ buf parsed,
      parse buf = .ok parsed → PayloadAt buf parsed (payloadOffset parsed) := by
  rintro ⟨payloadOffset, tells⟩
  have short := payloadAt_offsetBy (tells _ _ (parse_offsetBy 0x50))
  have long := payloadAt_offsetBy (tells _ _ (parse_offsetBy 0x60))
  rw [short] at long
  cases long

end QuartzFire.AppControl.Reset
