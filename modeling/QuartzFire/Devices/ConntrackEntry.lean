import QuartzFire.Devices.ConntrackLine

/-!
# Connections as conntrack prints them

A connection has a tuple in each direction, and what a tuple has beyond its
addresses is up to the protocol: ports, the type, the code and the identifier of
an echo, keys, or nothing.  Two connections that are alive at the same time
differ in their entry ids and in the original tuple or the zone.
-/

namespace QuartzFire.Devices

open Monitoring (splitWhitespace)

def isAddressChar (char : Char) : Bool :=
  char.isDigit || ('a' ≤ char && char ≤ 'f') || char = '.' || char = ':'

structure Address where
  text : List Char
  plain : text.all isAddressChar = true
  deriving DecidableEq

/-- The protocols that have ports. -/
inductive PortProtocol where
  | tcp
  | udp
  | udplite
  | sctp
  | dccp
  deriving DecidableEq

/-- What a tuple has of its protocol. -/
inductive L4 where
  | ports (protocol : PortProtocol) (sport dport : UInt16)
  /-- ICMP, or ICMPv6. -/
  | echo (v6 : Bool) (type code id : Nat)
  | gre (srckey dstkey : Nat)
  /-- Any other protocol by its number. -/
  | bare (number : Nat)
  deriving DecidableEq

structure Tuple where
  src : Address
  dst : Address
  l4 : L4
  deriving DecidableEq

def PortProtocol.name : PortProtocol → List Char
  | tcp => "tcp".toList
  | udp => "udp".toList
  | udplite => "udplite".toList
  | sctp => "sctp".toList
  | dccp => "dccp".toList

def PortProtocol.number : PortProtocol → Nat
  | tcp => 6
  | udp => 17
  | udplite => 136
  | sctp => 132
  | dccp => 33

namespace L4

/-- The name that is printed for the protocol. -/
def name : L4 → List Char
  | ports protocol _ _ => protocol.name
  | echo v6 _ _ _ => if v6 then "icmpv6".toList else "icmp".toList
  | gre _ _ => "gre".toList
  | bare _ => "unknown".toList

def number : L4 → Nat
  | ports protocol _ _ => protocol.number
  | echo v6 _ _ _ => if v6 then 58 else 1
  | gre _ _ => 47
  | bare number => number

def sport : L4 → Option UInt16
  | ports _ sport _ => some sport
  | _ => none

def dport : L4 → Option UInt16
  | ports _ _ dport => some dport
  | _ => none

/-- The identifier of an echo. -/
def identifier : L4 → Option Nat
  | echo _ _ _ id => some id
  | _ => none

def words : L4 → List (List Char)
  | ports _ sport dport =>
      [field "sport".toList (Nat.toDigits 10 sport.toNat),
        field "dport".toList (Nat.toDigits 10 dport.toNat)]
  | echo _ type code id =>
      [field "type".toList (Nat.toDigits 10 type),
        field "code".toList (Nat.toDigits 10 code),
        field "id".toList (Nat.toDigits 10 id)]
  | gre srckey dstkey =>
      [field "srckey".toList ("0x".toList ++ Nat.toDigits 16 srckey),
        field "dstkey".toList ("0x".toList ++ Nat.toDigits 16 dstkey)]
  | bare _ => []

end L4

def Tuple.words (tuple : Tuple) : List (List Char) :=
  field "src".toList tuple.src.text :: field "dst".toList tuple.dst.text ::
    tuple.l4.words

/-- An entry of the table, of one protocol in both directions. -/
structure Entry where
  v6 : Bool
  orig : Tuple
  reply : Tuple
  agree : orig.l4.name = reply.l4.name
  zone : Nat
  id : Nat
  deriving DecidableEq

/-- A state of a protocol, such as SYN_SENT. -/
structure StateName where
  text : List Char
  nonempty : text ≠ []
  plain : text.all (fun char => char.isAlphanum || char = '_') = true

/-- What changes over the life of an entry. -/
structure Shown where
  timeout : Nat
  state : Option StateName
  origPackets : Nat
  origBytes : UInt64
  replyPackets : Nat
  replyBytes : UInt64
  unreplied : Bool
  assured : Bool
  mark : UInt32
  use : Nat

inductive Feed where
  | snapshot
  | destroy
  deriving DecidableEq

/-- An event is marked, a snapshot line is not. -/
def Feed.marker : Feed → List (List Char)
  | snapshot => []
  | destroy => ["[DESTROY]".toList]

def layer3 (v6 : Bool) : List (List Char) :=
  if v6 then ["ipv6".toList, "10".toList] else ["ipv4".toList, "2".toList]

namespace Shown

variable (shown : Shown)

/-- How long the entry has still to live, in a snapshot. -/
def timeoutWords : Feed → List (List Char)
  | .snapshot => [Nat.toDigits 10 shown.timeout]
  | .destroy => []

def stateWords : L4 → List (List Char)
  | .ports _ _ _ => shown.state.toList.map StateName.text
  | _ => []

def useWords : Feed → List (List Char)
  | .snapshot => [field "use".toList (Nat.toDigits 10 shown.use)]
  | .destroy => []

end Shown

namespace Entry

variable (entry : Entry)

/-- The words before the tuples. -/
def front (feed : Feed) (shown : Shown) : List (List Char) :=
  feed.marker ++ (layer3 entry.v6 ++
    entry.orig.l4.name :: Nat.toDigits 10 entry.orig.l4.number ::
      (shown.timeoutWords feed ++ shown.stateWords entry.orig.l4))

def counters (packets : Nat) (bytes : UInt64) : List (List Char) :=
  [field "packets".toList (Nat.toDigits 10 packets),
    field "bytes".toList (Nat.toDigits 10 bytes.toNat)]

def flag (raised : Bool) (word : String) : List (List Char) :=
  if raised then [word.toList] else []

/-- The words behind the tuples. -/
def back (feed : Feed) (withId : Bool) (shown : Shown) : List (List Char) :=
  field "mark".toList (Nat.toDigits 10 shown.mark.toNat) ::
  ((if entry.zone = 0 then []
    else [field "zone".toList (Nat.toDigits 10 entry.zone)]) ++
  shown.useWords feed ++
  (if withId then [field "id".toList (Nat.toDigits 10 entry.id)] else []))

/-- The line of an entry in the extended format. -/
def words (feed : Feed) (withId : Bool) (shown : Shown) : List (List Char) :=
  entry.front feed shown ++ (entry.orig.words ++
    (counters shown.origPackets shown.origBytes ++
    (flag shown.unreplied "[UNREPLIED]" ++ (entry.reply.words ++
    (counters shown.replyPackets shown.replyBytes ++
    (flag shown.assured "[ASSURED]" ++ entry.back feed withId shown))))))

/-- A line of the entry, however its columns are filled up. -/
def IsLine (feed : Feed) (withId : Bool) (line : List Char) : Prop :=
  ∃ shown, splitWhitespace line = entry.words feed withId shown

end Entry

/-! ## The fields of a line -/

theorem equals_not_mem_of_digits {digits : List Char}
    (plain : ∀ char ∈ digits, char.isDigit = true) : '=' ∉ digits := by
  intro member
  exact absurd (plain '=' member) (by decide)

theorem equals_not_mem_digits (number : Nat) :
    '=' ∉ Nat.toDigits 10 number :=
  equals_not_mem_of_digits fun _ => isDigit_of_mem_digits

theorem StateName.equals_not_mem (state : StateName) : '=' ∉ state.text := by
  intro member
  exact absurd (List.all_eq_true.mp state.plain '=' member) (by decide)

theorem L4.name_alphanum (l4 : L4) : l4.name.all Char.isAlphanum = true := by
  cases l4 with
  | ports protocol _ _ => cases protocol <;> rfl
  | echo v6 _ _ _ => cases v6 <;> rfl
  | gre _ _ => rfl
  | bare _ => rfl

theorem L4.not_mem_name (l4 : L4) {char : Char}
    (other : char.isAlphanum = false) : char ∉ l4.name := by
  intro member
  have plain := List.all_eq_true.mp l4.name_alphanum char member
  rw [other] at plain
  cases plain

section Fields

variable (entry : Entry) (feed : Feed) (withId : Bool) (shown : Shown)
  (key : List Char)

theorem Entry.front_plain : ∀ word ∈ entry.front feed shown, '=' ∉ word := by
  unfold Entry.front
  rw [List.forall_mem_append, List.forall_mem_append, List.forall_mem_cons,
    List.forall_mem_cons, List.forall_mem_append]
  refine ⟨?_, ?_, entry.orig.l4.not_mem_name rfl, equals_not_mem_digits _,
    ?_, ?_⟩
  · cases feed <;> decide
  · unfold layer3
    split <;> decide
  · cases feed with
    | snapshot =>
        unfold Shown.timeoutWords
        rw [List.forall_mem_singleton]
        exact equals_not_mem_digits _
    | destroy => exact fun _ member => absurd member List.not_mem_nil
  · intro word member
    unfold Shown.stateWords at member
    split at member
    · obtain ⟨name, -, rfl⟩ := List.mem_map.mp member
      exact name.equals_not_mem
    · cases member

@[simp] theorem fieldValues_front :
    fieldValues key (entry.front feed shown) = [] :=
  fieldValues_of_plain (entry.front_plain feed shown)

@[simp] theorem fieldValues_unreplied :
    fieldValues key (Entry.flag shown.unreplied "[UNREPLIED]") = [] := by
  apply fieldValues_of_plain
  intro word member
  unfold Entry.flag at member
  split at member
  · rw [List.mem_singleton.mp member]
    decide
  · cases member

@[simp] theorem fieldValues_assured :
    fieldValues key (Entry.flag shown.assured "[ASSURED]") = [] := by
  apply fieldValues_of_plain
  intro word member
  unfold Entry.flag at member
  split at member
  · rw [List.mem_singleton.mp member]
    decide
  · cases member

theorem fieldValues_back (other : key ≠ "mark".toList ∧ key ≠ "zone".toList ∧
    key ≠ "use".toList) :
    fieldValues key (entry.back feed withId shown) =
      if key = "id".toList ∧ withId = true then [Nat.toDigits 10 entry.id]
      else [] := by
  obtain ⟨mark, zone, use⟩ := other
  unfold Entry.back
  rw [fieldValues_cons_field (by decide), if_neg (Ne.symm mark),
    fieldValues_append, fieldValues_append]
  have zones : fieldValues key (if entry.zone = 0 then []
      else [field "zone".toList (Nat.toDigits 10 entry.zone)]) = [] := by
    split
    · rfl
    · rw [fieldValues_cons_field (by decide), if_neg (Ne.symm zone),
        fieldValues_nil]
  have uses : fieldValues key (shown.useWords feed) = [] := by
    cases feed with
    | snapshot =>
        unfold Shown.useWords
        rw [fieldValues_cons_field (by decide), if_neg (Ne.symm use),
          fieldValues_nil]
    | destroy => rfl
  rw [zones, uses, List.nil_append, List.nil_append]
  cases withId with
  | false => simp
  | true =>
      rw [if_pos rfl, fieldValues_cons_field (by decide), fieldValues_nil]
      by_cases id : key = "id".toList
      · rw [if_pos id.symm, if_pos ⟨id, rfl⟩]
      · rw [if_neg (Ne.symm id), if_neg fun both => id both.1]

end Fields

/-- The values of a field of the tuples, one direction after the other. -/
def L4.sportTexts (l4 : L4) : List (List Char) :=
  l4.sport.toList.map fun port => Nat.toDigits 10 port.toNat

def L4.dportTexts (l4 : L4) : List (List Char) :=
  l4.dport.toList.map fun port => Nat.toDigits 10 port.toNat

def L4.idTexts (l4 : L4) : List (List Char) :=
  l4.identifier.toList.map (Nat.toDigits 10)

theorem fieldValues_l4_sport (l4 : L4) :
    fieldValues "sport".toList l4.words = l4.sportTexts := by
  cases l4 <;>
    simp (disch := decide) [L4.words, fieldValues_cons_field, L4.sportTexts,
      L4.sport]

theorem fieldValues_l4_dport (l4 : L4) :
    fieldValues "dport".toList l4.words = l4.dportTexts := by
  cases l4 <;>
    simp (disch := decide) [L4.words, fieldValues_cons_field, L4.dportTexts,
      L4.dport]

theorem fieldValues_l4_id (l4 : L4) :
    fieldValues "id".toList l4.words = l4.idTexts := by
  cases l4 <;>
    simp (disch := decide) [L4.words, fieldValues_cons_field, L4.idTexts,
      L4.identifier]

theorem fieldValues_l4_of_other (l4 : L4) {key : List Char}
    (other : key ∉ [ "sport".toList, "dport".toList, "type".toList,
      "code".toList, "id".toList, "srckey".toList, "dstkey".toList]) :
    fieldValues key l4.words = [] := by
  simp only [List.mem_cons, List.not_mem_nil, or_false, not_or] at other
  obtain ⟨sport, dport, type, code, id, srckey, dstkey⟩ := other
  cases l4 <;>
    simp (disch := decide) only [L4.words, fieldValues_cons_field,
      fieldValues_nil, if_neg (Ne.symm sport), if_neg (Ne.symm dport), if_neg (Ne.symm type),
      if_neg (Ne.symm code), if_neg (Ne.symm id), if_neg (Ne.symm srckey),
      if_neg (Ne.symm dstkey)]

/-! ## Every entry has lines -/

theorem isDark_of_alphanum {text : List Char}
    (plain : ∀ char ∈ text, char.isAlphanum = true) :
    IsDark isWhitespace text := by
  unfold IsDark
  rw [List.all_eq_true]
  intro char member
  rw [not_isWhitespace_of_alphanum (plain char member)]
  rfl

theorem isDark_digits (number : Nat) :
    IsDark isWhitespace (Nat.toDigits 10 number) := by
  apply isDark_of_alphanum
  intro char member
  unfold Char.isAlphanum
  rw [isDigit_of_mem_digits member, Bool.or_true]

theorem isAlphanum_digitChar : ∀ digit : Fin 16,
    (Nat.digitChar digit).isAlphanum = true := by
  decide

theorem isAlphanum_of_mem_hex (number : Nat) :
    ∀ char ∈ Nat.toDigits 16 number, char.isAlphanum = true := by
  induction number using Nat.strongRecOn with
  | ind number ih =>
      by_cases small : number < 16
      · rw [Nat.toDigits_of_lt_base small, List.forall_mem_singleton]
        exact isAlphanum_digitChar ⟨number, small⟩
      · rw [Nat.toDigits_of_base_le (by omega) (Nat.le_of_not_lt small),
          List.forall_mem_append, List.forall_mem_singleton]
        exact ⟨ih (number / 16) (by omega),
          isAlphanum_digitChar ⟨number % 16, Nat.mod_lt _ (by omega)⟩⟩

theorem isDark_hex (number : Nat) :
    IsDark isWhitespace ("0x".toList ++ Nat.toDigits 16 number) := by
  apply isDark_of_alphanum
  rw [List.forall_mem_append]
  refine ⟨?_, isAlphanum_of_mem_hex number⟩
  exact List.all_eq_true.mp rfl

theorem isAddressChar_dark {char : Char} (plain : isAddressChar char = true) :
    isWhitespace char = false := by
  unfold isAddressChar at plain
  simp only [Bool.or_eq_true, Bool.and_eq_true, decide_eq_true_eq] at plain
  rcases plain with ((digit | ⟨least, most⟩) | rfl) | rfl
  · apply not_isWhitespace_of_alphanum
    unfold Char.isAlphanum
    rw [digit, Bool.or_true]
  · apply not_isWhitespace_of_alphanum
    have lower : char.isLower = true := by
      change (decide ('a'.val ≤ char.val) && decide (char.val ≤ 'z'.val)) = true
      rw [Bool.and_eq_true, decide_eq_true_eq, decide_eq_true_eq]
      exact ⟨least, UInt32.le_trans most (by decide)⟩
    change (char.isUpper || char.isLower || char.isDigit) = true
    rw [lower, Bool.or_true, Bool.true_or]
  · rfl
  · rfl

theorem Address.isDark (address : Address) :
    IsDark isWhitespace address.text := by
  unfold IsDark
  rw [List.all_eq_true]
  intro char member
  rw [isAddressChar_dark (List.all_eq_true.mp address.plain char member)]
  rfl

theorem isWord_digits (number : Nat) :
    IsWord isWhitespace (Nat.toDigits 10 number) :=
  (isDark_digits number).isWord Nat.toDigits_ne_nil

theorem isWord_number {key : List Char} (keys : IsDark isWhitespace key)
    (number : Nat) :
    IsWord isWhitespace (field key (Nat.toDigits 10 number)) :=
  isWord_field rfl keys (isDark_digits number)

theorem isWord_l4 (l4 : L4) : ∀ word ∈ l4.words, IsWord isWhitespace word := by
  cases l4 with
  | ports protocol sport dport =>
      unfold L4.words
      rw [List.forall_mem_cons, List.forall_mem_singleton]
      exact ⟨isWord_number (by rfl) _, isWord_number (by rfl) _⟩
  | echo v6 type code id =>
      unfold L4.words
      rw [List.forall_mem_cons, List.forall_mem_cons, List.forall_mem_singleton]
      exact ⟨isWord_number (by rfl) _, isWord_number (by rfl) _,
        isWord_number (by rfl) _⟩
  | gre srckey dstkey =>
      unfold L4.words
      rw [List.forall_mem_cons, List.forall_mem_singleton]
      exact ⟨isWord_field rfl rfl (isDark_hex _),
        isWord_field rfl rfl (isDark_hex _)⟩
  | bare number => exact fun _ member => absurd member List.not_mem_nil

theorem isWord_tuple (tuple : Tuple) :
    ∀ word ∈ tuple.words, IsWord isWhitespace word := by
  unfold Tuple.words
  rw [List.forall_mem_cons, List.forall_mem_cons]
  exact ⟨isWord_field rfl rfl tuple.src.isDark,
    isWord_field rfl rfl tuple.dst.isDark, isWord_l4 tuple.l4⟩

theorem isWord_counters (packets : Nat) (bytes : UInt64) :
    ∀ word ∈ Entry.counters packets bytes, IsWord isWhitespace word := by
  unfold Entry.counters
  rw [List.forall_mem_cons, List.forall_mem_singleton]
  exact ⟨isWord_number (by rfl) _, isWord_number (by rfl) _⟩

theorem L4.isWord_name (l4 : L4) : IsWord isWhitespace l4.name := by
  apply IsDark.isWord
  · exact isDark_of_alphanum (List.all_eq_true.mp l4.name_alphanum)
  · cases l4 with
    | ports protocol _ _ => cases protocol <;> exact List.cons_ne_nil _ _
    | echo v6 _ _ _ => cases v6 <;> exact List.cons_ne_nil _ _
    | gre _ _ => exact List.cons_ne_nil _ _
    | bare _ => exact List.cons_ne_nil _ _

/-- An entry that was not answered yet, in no state. -/
def fresh : Shown :=
  { timeout := 30, state := none, origPackets := 1, origBytes := 84
    replyPackets := 0, replyBytes := 0, unreplied := true, assured := false
    mark := 0, use := 1 }

theorem isWord_front (entry : Entry) (feed : Feed) :
    ∀ word ∈ entry.front feed fresh, IsWord isWhitespace word := by
  unfold Entry.front
  rw [List.forall_mem_append, List.forall_mem_append, List.forall_mem_cons,
    List.forall_mem_cons, List.forall_mem_append]
  refine ⟨?_, ?_, entry.orig.l4.isWord_name, isWord_digits _, ?_, ?_⟩
  · cases feed with
    | snapshot => exact fun _ member => absurd member List.not_mem_nil
    | destroy =>
        unfold Feed.marker
        rw [List.forall_mem_singleton]
        exact IsDark.isWord rfl (List.cons_ne_nil _ _)
  · unfold layer3
    split
    · rw [List.forall_mem_cons, List.forall_mem_singleton]
      exact ⟨IsDark.isWord rfl (List.cons_ne_nil _ _),
        IsDark.isWord rfl (List.cons_ne_nil _ _)⟩
    · rw [List.forall_mem_cons, List.forall_mem_singleton]
      exact ⟨IsDark.isWord rfl (List.cons_ne_nil _ _),
        IsDark.isWord rfl (List.cons_ne_nil _ _)⟩
  · cases feed with
    | snapshot =>
        unfold Shown.timeoutWords
        rw [List.forall_mem_singleton]
        exact isWord_digits _
    | destroy => exact fun _ member => absurd member List.not_mem_nil
  · cases entry.orig.l4 <;>
      exact fun _ member => absurd member List.not_mem_nil

theorem isWord_back (entry : Entry) (feed : Feed) (withId : Bool) :
    ∀ word ∈ entry.back feed withId fresh, IsWord isWhitespace word := by
  unfold Entry.back
  rw [List.forall_mem_cons, List.forall_mem_append, List.forall_mem_append]
  refine ⟨isWord_number (by rfl) _, ⟨?_, ?_⟩, ?_⟩
  · split
    · exact fun _ member => absurd member List.not_mem_nil
    · rw [List.forall_mem_singleton]
      exact isWord_number (by rfl) _
  · cases feed with
    | snapshot =>
        unfold Shown.useWords
        rw [List.forall_mem_singleton]
        exact isWord_number (by rfl) _
    | destroy => exact fun _ member => absurd member List.not_mem_nil
  · split
    · rw [List.forall_mem_singleton]
      exact isWord_number (by rfl) _
    · exact fun _ member => absurd member List.not_mem_nil

theorem splitWhitespace_eq_wordsOf (line : List Char) :
    splitWhitespace line = wordsOf isWhitespace line := by
  unfold splitWhitespace wordsOf
  congr

theorem Entry.exists_line (entry : Entry) (feed : Feed) (withId : Bool) :
    ∃ line, entry.IsLine feed withId line := by
  refine ⟨[' '].intercalate (entry.words feed withId fresh), fresh, ?_⟩
  rw [splitWhitespace_eq_wordsOf]
  apply wordsOf_intercalate rfl
  unfold Entry.words
  simp only [List.forall_mem_append]
  refine ⟨isWord_front entry feed, isWord_tuple _, isWord_counters _ _, ?_,
    isWord_tuple _, isWord_counters _ _, ?_, isWord_back entry feed withId⟩
  · unfold Entry.flag fresh
    rw [if_pos rfl, List.forall_mem_singleton]
    exact IsDark.isWord rfl (List.cons_ne_nil _ _)
  · exact fun _ member => absurd member List.not_mem_nil

end QuartzFire.Devices
