import QuartzFire.Devices.ConntrackEntry

/-!
# What is read of a connection

Every line of a connection gives the same flow up to its counters and its mark,
whether it is of a snapshot or an event.
-/

namespace QuartzFire.Devices

section Values

variable (entry : Entry) (feed : Feed) (withId : Bool) (shown : Shown)

theorem fieldValues_counters_bytes (packets : Nat) (bytes : UInt64) :
    fieldValues "bytes".toList (Entry.counters packets bytes) =
      [Nat.toDigits 10 bytes.toNat] := by
  unfold Entry.counters
  simp (disch := decide) [fieldValues_cons_field]

theorem fieldValues_counters_of_other {key : List Char}
    (packets' : key ≠ "packets".toList) (bytes' : key ≠ "bytes".toList)
    (packets : Nat) (bytes : UInt64) :
    fieldValues key (Entry.counters packets bytes) = [] := by
  unfold Entry.counters
  rw [fieldValues_cons_field (by decide), if_neg (Ne.symm packets'),
    fieldValues_cons_field (by decide), if_neg (Ne.symm bytes'),
    fieldValues_nil]

theorem fieldValues_tuple_src (tuple : Tuple) :
    fieldValues "src".toList tuple.words = [tuple.src.text] := by
  unfold Tuple.words
  rw [fieldValues_cons_field (by decide), fieldValues_cons_field (by decide),
    fieldValues_l4_of_other tuple.l4 (by decide)]
  rfl

theorem fieldValues_tuple_dst (tuple : Tuple) :
    fieldValues "dst".toList tuple.words = [tuple.dst.text] := by
  unfold Tuple.words
  rw [fieldValues_cons_field (by decide), fieldValues_cons_field (by decide),
    fieldValues_l4_of_other tuple.l4 (by decide)]
  rfl

theorem fieldValues_tuple_of_other {key : List Char} (src : key ≠ "src".toList)
    (dst : key ≠ "dst".toList) (tuple : Tuple) :
    fieldValues key tuple.words = fieldValues key tuple.l4.words := by
  unfold Tuple.words
  rw [fieldValues_cons_field (by decide), if_neg (Ne.symm src),
    fieldValues_cons_field (by decide), if_neg (Ne.symm dst)]

/-- The values of a field that is neither in front nor among the flags. -/
theorem fieldValues_words (key : List Char) :
    fieldValues key (entry.words feed withId shown) =
      fieldValues key entry.orig.words ++
      (fieldValues key (Entry.counters shown.origPackets shown.origBytes) ++
      (fieldValues key entry.reply.words ++
      (fieldValues key (Entry.counters shown.replyPackets shown.replyBytes) ++
        fieldValues key (entry.back feed withId shown)))) := by
  unfold Entry.words
  simp

theorem fieldValues_words_src :
    fieldValues "src".toList (entry.words feed withId shown) =
      [entry.orig.src.text, entry.reply.src.text] := by
  rw [fieldValues_words, fieldValues_tuple_src, fieldValues_tuple_src,
    fieldValues_counters_of_other (by decide) (by decide),
    fieldValues_counters_of_other (by decide) (by decide),
    fieldValues_back _ _ _ _ _ (by decide)]
  rfl

theorem fieldValues_words_dst :
    fieldValues "dst".toList (entry.words feed withId shown) =
      [entry.orig.dst.text, entry.reply.dst.text] := by
  rw [fieldValues_words, fieldValues_tuple_dst, fieldValues_tuple_dst,
    fieldValues_counters_of_other (by decide) (by decide),
    fieldValues_counters_of_other (by decide) (by decide),
    fieldValues_back _ _ _ _ _ (by decide)]
  rfl

theorem fieldValues_words_sport :
    fieldValues "sport".toList (entry.words feed withId shown) =
      entry.orig.l4.sportTexts ++ entry.reply.l4.sportTexts := by
  rw [fieldValues_words,
    fieldValues_tuple_of_other (by decide) (by decide),
    fieldValues_tuple_of_other (by decide) (by decide),
    fieldValues_l4_sport, fieldValues_l4_sport,
    fieldValues_counters_of_other (by decide) (by decide),
    fieldValues_counters_of_other (by decide) (by decide),
    fieldValues_back _ _ _ _ _ (by decide), if_neg (by simp)]
  simp

theorem fieldValues_words_dport :
    fieldValues "dport".toList (entry.words feed withId shown) =
      entry.orig.l4.dportTexts ++ entry.reply.l4.dportTexts := by
  rw [fieldValues_words,
    fieldValues_tuple_of_other (by decide) (by decide),
    fieldValues_tuple_of_other (by decide) (by decide),
    fieldValues_l4_dport, fieldValues_l4_dport,
    fieldValues_counters_of_other (by decide) (by decide),
    fieldValues_counters_of_other (by decide) (by decide),
    fieldValues_back _ _ _ _ _ (by decide), if_neg (by simp)]
  simp

theorem fieldValues_words_id :
    fieldValues "id".toList (entry.words feed withId shown) =
      entry.orig.l4.idTexts ++ (entry.reply.l4.idTexts ++
        if withId then [Nat.toDigits 10 entry.id] else []) := by
  rw [fieldValues_words,
    fieldValues_tuple_of_other (by decide) (by decide),
    fieldValues_tuple_of_other (by decide) (by decide),
    fieldValues_l4_id, fieldValues_l4_id,
    fieldValues_counters_of_other (by decide) (by decide),
    fieldValues_counters_of_other (by decide) (by decide),
    fieldValues_back _ _ _ _ _ (by decide)]
  simp

theorem fieldValues_words_bytes :
    fieldValues "bytes".toList (entry.words feed withId shown) =
      [Nat.toDigits 10 shown.origBytes.toNat,
        Nat.toDigits 10 shown.replyBytes.toNat] := by
  rw [fieldValues_words,
    fieldValues_tuple_of_other (by decide) (by decide),
    fieldValues_tuple_of_other (by decide) (by decide),
    fieldValues_l4_of_other _ (by decide),
    fieldValues_l4_of_other _ (by decide),
    fieldValues_counters_bytes, fieldValues_counters_bytes,
    fieldValues_back _ _ _ _ _ (by decide), if_neg (by simp)]
  rfl

end Values

/-! ## The protocol of a line -/

/-- A word the scan may take for the name of the protocol. -/
def mayName (word : List Char) : Bool :=
  decide ('=' ∉ word) && isProtoName word

theorem mayName_of_field {word : List Char} (mark : '=' ∈ word) :
    mayName word = false := by
  unfold mayName
  rw [decide_eq_false (not_not_intro mark), Bool.false_and]

theorem mayName_digits (number : Nat) :
    mayName (Nat.toDigits 10 number) = false := by
  obtain ⟨first, rest, whole⟩ :=
    List.exists_cons_of_ne_nil (@Nat.toDigits_ne_nil number 10)
  have digit : first.isDigit = true := by
    apply @isDigit_of_mem_digits number
    rw [whole]
    exact List.mem_cons_self
  have letter : first.isAlpha = false := by
    change (decide ('0'.val ≤ first.val) && decide (first.val ≤ '9'.val)) = true
      at digit
    change (decide ('A'.val ≤ first.val ∧ first.val ≤ 'Z'.val) ||
      decide ('a'.val ≤ first.val) && decide (first.val ≤ 'z'.val)) = false
    simp only [Bool.and_eq_true, decide_eq_true_eq, Bool.or_eq_false_iff,
      Bool.and_eq_false_iff, decide_eq_false_iff_not, not_and,
      UInt32.le_iff_toNat_le] at digit ⊢
    simp at digit ⊢
    omega
  unfold mayName isProtoName
  rw [whole, List.all_cons, letter, Bool.false_and, Bool.false_and,
    Bool.and_false]

/-- The name by which the scan knows the protocol. -/
def L4.proto : L4 → Option (List Char)
  | .echo true _ _ _ => none
  | l4 => some l4.name

theorem mayName_field (key value : List Char) :
    mayName (field key value) = false := by
  apply mayName_of_field
  unfold field
  simp

theorem mayName_l4 (l4 : L4) : ∀ word ∈ l4.words, mayName word = false := by
  intro word member
  cases l4 with
  | ports protocol sport dport =>
      rcases List.mem_pair.mp member with rfl | rfl
      · exact mayName_field _ _
      · exact mayName_field _ _
  | echo v6 type code id =>
      rcases List.mem_cons.mp member with rfl | member
      · exact mayName_field _ _
      · rcases List.mem_pair.mp member with rfl | rfl
        · exact mayName_field _ _
        · exact mayName_field _ _
  | gre srckey dstkey =>
      rcases List.mem_pair.mp member with rfl | rfl
      · exact mayName_field _ _
      · exact mayName_field _ _
  | bare number => cases member

theorem mayName_tuple (tuple : Tuple) :
    ∀ word ∈ tuple.words, mayName word = false := by
  unfold Tuple.words
  rw [List.forall_mem_cons, List.forall_mem_cons]
  exact ⟨mayName_field _ _, mayName_field _ _, mayName_l4 tuple.l4⟩

theorem mayName_counters (packets : Nat) (bytes : UInt64) :
    ∀ word ∈ Entry.counters packets bytes, mayName word = false := by
  unfold Entry.counters
  rw [List.forall_mem_cons, List.forall_mem_singleton]
  exact ⟨mayName_field _ _, mayName_field _ _⟩

theorem mayName_flag {word : String} (marked : mayName word.toList = false)
    (raised : Bool) :
    ∀ shown ∈ Entry.flag raised word, mayName shown = false := by
  intro shown member
  unfold Entry.flag at member
  split at member
  · rwa [List.mem_singleton.mp member]
  · cases member

theorem mayName_back (entry : Entry) (feed : Feed) (withId : Bool)
    (shown : Shown) :
    ∀ word ∈ entry.back feed withId shown, mayName word = false := by
  unfold Entry.back
  rw [List.forall_mem_cons, List.forall_mem_append, List.forall_mem_append]
  refine ⟨mayName_field _ _, ⟨?_, ?_⟩, ?_⟩
  · split
    · simp
    · rw [List.forall_mem_singleton]
      exact mayName_field _ _
  · cases feed with
    | snapshot =>
        unfold Shown.useWords
        rw [List.forall_mem_singleton]
        exact mayName_field _ _
    | destroy => exact fun _ member => absurd member List.not_mem_nil
  · split
    · rw [List.forall_mem_singleton]
      exact mayName_field _ _
    · simp

theorem find?_eq_none_of_mayName {words : List (List Char)}
    (none' : ∀ word ∈ words, mayName word = false) :
    words.find? mayName = none := by
  rw [List.find?_eq_none]
  intro word member
  rw [none' word member]
  exact Bool.false_ne_true

theorem mayName_name {l4 : L4} :
    mayName l4.name = l4.proto.isSome := by
  cases l4 with
  | ports protocol _ _ => cases protocol <;> rfl
  | echo v6 _ _ _ => cases v6 <;> rfl
  | gre _ _ => rfl
  | bare _ => rfl

theorem proto_of_isSome {l4 : L4} (named : l4.proto.isSome = true) :
    l4.proto = some l4.name := by
  unfold L4.proto at named ⊢
  split
  · cases named
  · rfl

theorem find?_front (entry : Entry) (feed : Feed) (shown : Shown) :
    (entry.front feed shown).find? mayName = entry.orig.l4.proto := by
  have marker : feed.marker.find? mayName = none := by
    cases feed <;> rfl
  have family : (layer3 entry.v6).find? mayName = none := by
    cases entry.v6 <;> rfl
  unfold Entry.front
  rw [List.find?_append, List.find?_append, marker, family, Option.none_or,
    Option.none_or, List.find?_cons, mayName_name]
  cases named : entry.orig.l4.proto.isSome with
  | true => exact (proto_of_isSome named).symm
  | false =>
      have unnamed := Option.isSome_eq_false_iff.mp named
      dsimp only
      rw [Option.isNone_iff_eq_none.mp unnamed]
      apply find?_eq_none_of_mayName
      rw [List.forall_mem_cons, List.forall_mem_append]
      refine ⟨mayName_digits _, ?_, ?_⟩
      · cases feed with
        | snapshot =>
            unfold Shown.timeoutWords
            rw [List.forall_mem_singleton]
            exact mayName_digits _
        | destroy => exact fun _ member => absurd member List.not_mem_nil
      · cases l4 : entry.orig.l4 with
        | ports protocol _ _ =>
            rw [l4] at named
            cases named
        | _ => exact fun _ member => absurd member List.not_mem_nil

theorem find?_words (entry : Entry) (feed : Feed) (withId : Bool)
    (shown : Shown) :
    (entry.words feed withId shown).find? mayName = entry.orig.l4.proto := by
  unfold Entry.words
  rw [List.find?_append, find?_front, find?_eq_none_of_mayName, Option.or_none]
  simp only [List.forall_mem_append]
  exact ⟨mayName_tuple _, mayName_counters _ _, mayName_flag rfl _,
    mayName_tuple _, mayName_counters _ _, mayName_flag rfl _,
    mayName_back _ _ _ _⟩

/-! ## Both directions are of one protocol -/

theorem L4.identifier_isSome (l4 : L4) :
    l4.identifier.isSome =
      decide (l4.name = "icmp".toList ∨ l4.name = "icmpv6".toList) := by
  cases l4 with
  | ports protocol _ _ => cases protocol <;> rfl
  | echo v6 _ _ _ => cases v6 <;> rfl
  | gre _ _ => rfl
  | bare _ => rfl

theorem L4.sport_isSome (l4 : L4) :
    l4.sport.isSome = ["tcp".toList, "udp".toList, "udplite".toList,
      "sctp".toList, "dccp".toList].contains l4.name := by
  cases l4 with
  | ports protocol _ _ => cases protocol <;> rfl
  | echo v6 _ _ _ => cases v6 <;> rfl
  | gre _ _ => rfl
  | bare _ => rfl

theorem L4.dport_isSome (l4 : L4) : l4.dport.isSome = l4.sport.isSome := by
  cases l4 <;> rfl

/-! ## Keys -/

def portText (port : Option UInt16) : List Char :=
  (port.map fun port => Nat.toDigits 10 port.toNat).getD "0".toList

/-- The key of an entry by its tuples. -/
def Entry.tupleKey (entry : Entry) : List Char :=
  match entry.reply.l4.identifier with
  | some id => Nat.toDigits 10 id
  | none => Devices.tupleKey entry.orig.l4.name entry.orig.src.text
      (portText entry.orig.l4.sport) entry.orig.dst.text
      (portText entry.orig.l4.dport)

def Entry.key (entry : Entry) (withId : Bool) : List Char :=
  if withId then Nat.toDigits 10 entry.id else entry.tupleKey

/-- The flow that every line of an entry gives, up to the counters and the
mark. -/
structure Entry.Gives (entry : Entry) (withId : Bool) (flow : ParsedFlow) :
    Prop where
  key : flow.key = entry.key withId
  origSrc : flow.origSrc = entry.orig.src.text
  origDst : flow.origDst = entry.orig.dst.text
  proto : flow.proto = entry.orig.l4.proto.getD []
  dport : flow.dport = (entry.orig.l4.dport.map UInt16.toNat).getD 0

theorem head?_sportTexts (entry : Entry) :
    (entry.orig.l4.sportTexts ++ entry.reply.l4.sportTexts).head?.getD
      "0".toList = portText entry.orig.l4.sport := by
  have same : entry.reply.l4.sport.isSome = entry.orig.l4.sport.isSome := by
    rw [L4.sport_isSome, L4.sport_isSome, entry.agree]
  unfold L4.sportTexts portText
  cases orig : entry.orig.l4.sport with
  | some port => rfl
  | none =>
      rw [orig, Option.isSome_none, Option.isSome_eq_false_iff,
        Option.isNone_iff_eq_none] at same
      rw [same]
      rfl

theorem dport_reply (entry : Entry) :
    entry.reply.l4.dport.isSome = entry.orig.l4.dport.isSome := by
  rw [L4.dport_isSome, L4.dport_isSome, L4.sport_isSome, L4.sport_isSome,
    entry.agree]

theorem head?_dportTexts (entry : Entry) :
    (entry.orig.l4.dportTexts ++ entry.reply.l4.dportTexts).head? =
      entry.orig.l4.dport.map fun port => Nat.toDigits 10 port.toNat := by
  have same := dport_reply entry
  unfold L4.dportTexts
  cases orig : entry.orig.l4.dport with
  | some port => rfl
  | none =>
      rw [orig, Option.isSome_none, Option.isSome_eq_false_iff,
        Option.isNone_iff_eq_none] at same
      rw [same]
      rfl

theorem identifier_reply (entry : Entry) :
    entry.reply.l4.identifier.isSome = entry.orig.l4.identifier.isSome := by
  rw [L4.identifier_isSome, L4.identifier_isSome, entry.agree]

/-- The last `id=` is the entry id, else the identifier of the reply. -/
theorem getLast?_ids (entry : Entry) (withId : Bool) :
    (entry.orig.l4.idTexts ++ (entry.reply.l4.idTexts ++
      if withId then [Nat.toDigits 10 entry.id] else [])).getLast? =
        if withId then some (Nat.toDigits 10 entry.id)
        else entry.reply.l4.identifier.map (Nat.toDigits 10) := by
  cases withId with
  | true =>
      rw [if_pos rfl, if_pos rfl, ← List.append_assoc, List.getLast?_concat]
  | false =>
      have same := identifier_reply entry
      rw [if_neg Bool.false_ne_true, if_neg Bool.false_ne_true, List.append_nil]
      unfold L4.idTexts
      cases reply : entry.reply.l4.identifier with
      | some id => simp
      | none =>
          rw [reply, Option.isSome_none, eq_comm, Option.isSome_eq_false_iff,
            Option.isNone_iff_eq_none] at same
          rw [same]
          rfl

/-- A protocol without an identifier is known by its name. -/
theorem proto_of_identifier {l4 : L4} (other : l4.identifier = none) :
    l4.proto = some l4.name := by
  cases l4 with
  | echo v6 _ _ _ => cases other
  | _ => rfl

theorem Entry.IsLine.gives {entry : Entry} {feed : Feed} {withId : Bool}
    {line : List Char} (isLine : entry.IsLine feed withId line) :
    ∃ flow, parseLine line = some flow ∧ entry.Gives withId flow := by
  obtain ⟨shown, words⟩ := isLine
  have orig := @parseUnsigned_toDigits 64 _ shown.origBytes.toNat_lt
  have reply := @parseUnsigned_toDigits 64 _ shown.replyBytes.toNat_lt
  have found : Found.after {} (entry.words feed withId shown) =
      { origSrc := some entry.orig.src.text
        origDst := some entry.orig.dst.text
        sport :=
          (entry.orig.l4.sportTexts ++ entry.reply.l4.sportTexts).head?
        dport := entry.orig.l4.dport.map fun port =>
          Nat.toDigits 10 port.toNat
        proto := entry.orig.l4.proto
        id := if withId then some (Nat.toDigits 10 entry.id)
          else entry.reply.l4.identifier.map (Nat.toDigits 10)
        mark := (fieldValues "mark".toList
          (entry.words feed withId shown)).getLast?.elim none
            (parseUnsigned 32)
        byteCounters := [shown.origBytes.toNat, shown.replyBytes.toNat] } := by
    unfold Found.after
    rw [fieldValues_words_src, fieldValues_words_dst, fieldValues_words_sport,
      fieldValues_words_dport, fieldValues_words_id, fieldValues_words_bytes,
      head?_dportTexts, getLast?_ids]
    simp only [Option.none_or, Option.or_none, List.head?_cons,
      List.nil_append, List.flatMap_cons, List.flatMap_nil, orig, reply,
      Option.toList_some, List.append_nil, List.singleton_append]
    congr 1
    exact find?_words entry feed withId shown
  unfold parseLine
  rw [words, Found.foldl_token, found]
  refine ⟨_, rfl, ?_, rfl, rfl, rfl, ?_⟩
  · unfold Entry.key Entry.tupleKey
    cases withId with
    | true => rfl
    | false =>
        cases id : entry.reply.l4.identifier with
        | some id => rfl
        | none =>
            have same := identifier_reply entry
            rw [id, Option.isSome_none, eq_comm, Option.isSome_eq_false_iff,
              Option.isNone_iff_eq_none] at same
            dsimp only
            rw [head?_sportTexts, proto_of_identifier same]
            rfl
  · cases entry.orig.l4.dport with
    | none => rfl
    | some port =>
        have fits := @parseUnsigned_toDigits 16 _ port.toNat_lt
        dsimp only
        rw [Option.map_some, Option.bind_some, fits]
        rfl

end QuartzFire.Devices
