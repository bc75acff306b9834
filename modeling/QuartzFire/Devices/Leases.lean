import Mathlib.Data.List.Nodup
import QuartzFire.Devices.Online
import QuartzFire.Foundation.Blanks
import QuartzFire.Foundation.FirstGreatest
import QuartzFire.Foundation.Keyed
import QuartzFire.Foundation.TextLines

/-!
# Leases from the lease file

The DHCP server appends a row to its lease file whenever a lease changes, so
that the last row of an address is the one that counts.  The collector reads
the file from its start and keeps, of each address, the row that expires last.
-/

namespace QuartzFire.Devices

open TextLines

/-! ## Reading the file -/

/-- `cols` and `latest` of `parse_csv`; an entry of `cols` is overridden by the
entries before it. -/
structure Reading where
  cols : List (List Char × Nat)
  latest : List Lease

/-- A row after the header, by its fields. -/
def readRow (statics : String → Bool) (field : String → Option (List Char))
    (latest : List Lease) : List Lease :=
  match (field "address").filter (· ≠ []), (field "hwaddr").filter (· ≠ []) with
  | some ip, some mac =>
      let ip := String.ofList ip
      let mac := String.ofList (mac.map Char.toLower)
      let expire := ((field "expire").bind (parseSigned 64)).getD 0
      let state := ((field "state").bind (parseSigned 64)).getD 0
      if state ≠ 0 then latest.filter fun lease => lease.ip ≠ ip
      else
        let hostname := ((field "hostname").map trim).filter (· ≠ [])
        let lease : Lease :=
          { ip, mac, hostname := hostname.map String.ofList, expire
            isStatic := statics mac }
        match latest.find? fun lease => lease.ip = ip with
        | some prev =>
            if expire ≤ prev.expire then latest
            else lease :: latest.filter fun lease => lease.ip ≠ ip
        | none => lease :: latest
  | _, _ => latest

def readLine (statics : String → Bool) (reading : Reading)
    (numbered : List Char × Nat) : Reading :=
  let (line, i) := numbered
  if (trim line).isEmpty then reading
  else
    let fields := line.splitOn ','
    if i = 0 && "address".toList.isPrefixOf line then
      { reading with
        cols := (fields.map trim).zipIdx.reverse ++ reading.cols }
    else if reading.cols.isEmpty then reading
    else
      let field := fun key : String =>
        (reading.cols.lookup key.toList).bind fun idx => fields[idx]?
      { reading with latest := readRow statics field reading.latest }

/-- `parse_csv`; the order of the leases is that of a hash map. -/
def parseCsv (statics : String → Bool) (text : List Char) : List Lease :=
  ((lines text).zipIdx.foldl (readLine statics) ⟨[], []⟩).latest

/-! ## The file -/

/-- A text that a field can be. -/
def PlainField (text : List Char) : Prop :=
  ',' ∉ text ∧ '\n' ∉ text ∧ '\r' ∉ text

instance (text : List Char) : Decidable (PlainField text) :=
  inferInstanceAs (Decidable (_ ∧ _))

/-- A row of the lease file. -/
structure LeaseRow where
  address : List Char
  /-- Empty where the address was declined. -/
  hwaddr : List Char
  validLifetime : Nat
  expire : Nat
  hostname : List Char
  state : Nat
  /-- The columns that are not read. -/
  other : String → List Char
  address_some : address ≠ []
  address_plain : PlainField address
  hwaddr_plain : PlainField hwaddr
  hostname_plain : PlainField hostname
  other_plain : ∀ column, PlainField (other column)
  expire_fits : expire < 2 ^ 63
  state_fits : state < 2 ^ 63

namespace LeaseRow

/-- The text of the row in a column. -/
def field (row : LeaseRow) (column : String) : List Char :=
  match column with
  | "address" => row.address
  | "hwaddr" => row.hwaddr
  | "valid_lifetime" => Nat.toDigits 10 row.validLifetime
  | "expire" => Nat.toDigits 10 row.expire
  | "hostname" => row.hostname
  | "state" => Nat.toDigits 10 row.state
  | column => row.other column

theorem digits_plain (number : Nat) : PlainField (Nat.toDigits 10 number) := by
  have digit (char : Char) (other : char.isDigit = false) :
      char ∉ Nat.toDigits 10 number := not_mem_digits other number
  exact ⟨digit ',' rfl, digit '\n' rfl, digit '\r' rfl⟩

theorem field_plain (row : LeaseRow) (column : String) :
    PlainField (row.field column) := by
  unfold field
  split
  · exact row.address_plain
  · exact row.hwaddr_plain
  · exact digits_plain _
  · exact digits_plain _
  · exact row.hostname_plain
  · exact digits_plain _
  · exact row.other_plain column

def ip (row : LeaseRow) : String := String.ofList row.address

/-- The lease that the row is about. -/
def lease (statics : String → Bool) (row : LeaseRow) : Lease :=
  let mac := String.ofList (row.hwaddr.map Char.toLower)
  let hostname := trim row.hostname
  { ip := row.ip
    mac
    hostname := if hostname = [] then none else some (String.ofList hostname)
    expire := row.expire
    isStatic := statics mac }

/-- A non-zero state or a zero lifetime ends the lease. -/
def active (row : LeaseRow) : Bool := row.state = 0 && row.validLifetime ≠ 0

end LeaseRow

/-- A lease file, with the columns of its header. -/
structure LeaseFile where
  columns : List String
  rows : List LeaseRow
  address_first : columns.head? = some "address"
  columns_read : ∀ column ∈ ["hwaddr", "expire", "hostname", "state"],
    column ∈ columns
  columns_distinct : columns.Nodup
  columns_plain : ∀ column ∈ columns,
    PlainField column.toList ∧ trim column.toList = column.toList

def LeaseFile.text (file : LeaseFile) : List Char :=
  unlines (([','].intercalate (file.columns.map String.toList)) ::
    file.rows.map fun row => [','].intercalate (file.columns.map row.field))

/-- The rows of an address. -/
def rowsOf (ip : String) (rows : List LeaseRow) : List LeaseRow :=
  rows.filter fun row => row.ip = ip

/-- The lease of an address is that of the last row, if it is active. -/
def currentLease (statics : String → Bool) (rows : List LeaseRow)
    (ip : String) : Option Lease :=
  ((rowsOf ip rows).getLast?.filter LeaseRow.active).map
    (LeaseRow.lease statics)

/-- One lease for each address that has one, and no other. -/
def ReadsCurrent (statics : String → Bool) (file : LeaseFile) : Prop :=
  ((parseCsv statics file.text).map Lease.ip).Nodup ∧
    ∀ lease, lease ∈ parseCsv statics file.text ↔
      currentLease statics file.rows lease.ip = some lease

/-! ## What is read of a row -/

theorem lookup_of_nodup {Key Value : Type} [BEq Key] [LawfulBEq Key]
    {entries : List (Key × Value)} (distinct : (entries.map Prod.fst).Nodup)
    {key : Key} {value : Value} (among : (key, value) ∈ entries) :
    entries.lookup key = some value := by
  induction entries with
  | nil => cases among
  | cons entry entries ih =>
      rw [List.map_cons, List.nodup_cons] at distinct
      rcases List.mem_cons.mp among with rfl | among
      · exact List.lookup_cons_self
      · have other : (key == entry.1) = false := by
          rw [beq_eq_false_iff_ne]
          rintro rfl
          exact distinct.1 (List.mem_map.mpr ⟨_, among, rfl⟩)
        rw [List.lookup_cons, other]
        exact ih distinct.2 among

theorem parseSigned_toDigits {number : Nat} (fits : number < 2 ^ 63) :
    parseSigned 64 (Nat.toDigits 10 number) = some (number : Int) := by
  have unsigned : parseUnsigned 64 (Nat.toDigits 10 number) = some number :=
    parseUnsigned_toDigits (by omega)
  unfold parseSigned
  split
  · rename_i digits signed
    exact absurd signed (head_digits (all_isDigit_digits number) rfl digits)
  · rw [unsigned, Option.filter_some, if_pos (by simpa using fits)]
    rfl

theorem not_mem_intercalate {char separator : Char} (other : char ≠ separator)
    {fields : List (List Char)} (absent : ∀ field ∈ fields, char ∉ field) :
    char ∉ [separator].intercalate fields := by
  induction fields with
  | nil => simp
  | cons field fields ih =>
      rw [List.forall_mem_cons] at absent
      by_cases last : fields = []
      · subst last
        simpa using absent.1
      · rw [List.intercalate_cons_of_ne_nil last]
        simp [absent.1, other, ih absent.2]

theorem separator_mem_intercalate (separator : Char) (first second : List Char)
    (fields : List (List Char)) :
    separator ∈ [separator].intercalate (first :: second :: fields) := by
  rw [List.intercalate_cons_of_ne_nil (List.cons_ne_nil second fields)]
  simp

namespace LeaseFile

variable (file : LeaseFile)

/-- A line of the file, by what is in its columns. -/
def line (value : String → List Char) : List Char :=
  [','].intercalate (file.columns.map value)

theorem columns_two : ∃ first second rest,
    file.columns = first :: second :: rest := by
  have mac := file.columns_read "hwaddr" (by simp)
  have first := file.address_first
  match columns : file.columns with
  | [] =>
      rw [columns] at first
      cases first
  | [only] =>
      rw [columns] at first mac
      cases first
      exact absurd mac (by decide)
  | first :: second :: rest => exact ⟨first, second, rest, rfl⟩

theorem line_not_blank (value : String → List Char) :
    (trim (file.line value)).isEmpty = false := by
  obtain ⟨first, second, rest, columns⟩ := file.columns_two
  have comma : ',' ∈ file.line value := by
    rw [line, columns]
    exact separator_mem_intercalate ',' _ _ _
  rw [List.isEmpty_eq_false_iff]
  intro blank
  have covered := (@trimBy_eq_nil _ isWhitespace _).mp blank ',' comma
  exact absurd covered (by decide)

variable {file}

theorem splitOn_line {value : String → List Char}
    (plain : ∀ column ∈ file.columns, PlainField (value column)) :
    (file.line value).splitOn ',' = file.columns.map value := by
  apply List.splitOn_intercalate
  · intro field among
    obtain ⟨column, inColumns, rfl⟩ := List.mem_map.mp among
    exact (plain column inColumns).1
  · obtain ⟨first, second, rest, columns⟩ := file.columns_two
    rw [columns]
    simp

theorem line_plain {value : String → List Char}
    (plain : ∀ column ∈ file.columns, PlainField (value column)) :
    '\n' ∉ file.line value ∧ chomp (file.line value) = file.line value := by
  have absent {char : Char} (other : char ≠ ',')
      (fields : ∀ column ∈ file.columns, char ∉ value column) :
      char ∉ file.line value := by
    apply not_mem_intercalate other
    intro field among
    obtain ⟨column, inColumns, rfl⟩ := List.mem_map.mp among
    exact fields column inColumns
  constructor
  · exact absent (by decide) fun column among => (plain column among).2.1
  · rw [chomp_eq_self]
    intro ends
    exact absent (by decide) (fun column among => (plain column among).2.2)
      (List.mem_of_getLast? ends)

/-- The columns of the header are found again. -/
theorem lookup_column {column : String} (among : column ∈ file.columns) :
    ∃ idx, file.columns[idx]? = some column ∧
      ((file.columns.map String.toList).zipIdx.reverse).lookup column.toList =
        some idx := by
  obtain ⟨idx, at_⟩ := List.mem_iff_getElem?.mp among
  refine ⟨idx, at_, lookup_of_nodup ?_ ?_⟩
  · rw [List.map_reverse, List.nodup_reverse, List.zipIdx_map_fst]
    exact file.columns_distinct.map fun _ _ same => String.toList_injective same
  · rw [List.mem_reverse, List.mk_mem_zipIdx_iff_getElem?, List.getElem?_map,
      at_]
    rfl

theorem map_trim_columns :
    (file.columns.map String.toList).map trim =
      file.columns.map String.toList := by
  rw [List.map_map]
  apply List.map_congr_left
  intro column among
  exact (file.columns_plain column among).2

end LeaseFile

/-! ## Reading what was written -/

/-- What a row does to the leases. -/
def LeaseRow.apply (statics : String → Bool) (latest : List Lease)
    (row : LeaseRow) : List Lease :=
  if row.hwaddr = [] then latest
  else if row.state ≠ 0 then latest.filter fun lease => lease.ip ≠ row.ip
  else
    match latest.find? fun lease => lease.ip = row.ip with
    | some prev =>
        if (row.expire : Int) ≤ prev.expire then latest
        else row.lease statics ::
          latest.filter fun lease => lease.ip ≠ row.ip
    | none => row.lease statics :: latest

theorem readRow_field (statics : String → Bool) (latest : List Lease)
    (row : LeaseRow) (field : String → Option (List Char))
    (reads : ∀ column ∈ ["address", "hwaddr", "expire", "hostname", "state"],
      field column = some (row.field column)) :
    readRow statics field latest = row.apply statics latest := by
  simp only [List.forall_mem_cons] at reads
  obtain ⟨address, hwaddr, expire, hostname, state, _⟩ := reads
  have address : (field "address").filter (· ≠ []) = some row.address := by
    have some_ : row.field "address" ≠ [] := row.address_some
    rw [address, Option.filter_some, if_pos (by simpa using some_)]
    rfl
  have expires : ((field "expire").bind (parseSigned 64)).getD 0 =
      (row.expire : Int) := by
    rw [expire]
    exact congrArg (Option.getD · 0) (parseSigned_toDigits row.expire_fits)
  have states : ((field "state").bind (parseSigned 64)).getD 0 =
      (row.state : Int) := by
    rw [state]
    exact congrArg (Option.getD · 0) (parseSigned_toDigits row.state_fits)
  have named : (((field "hostname").map trim).filter (· ≠ [])).map
      String.ofList = (row.lease statics).hostname := by
    have hostname_ : row.field "hostname" = row.hostname := rfl
    rw [hostname, hostname_, Option.map_some, Option.filter_some,
      LeaseRow.lease]
    dsimp only
    by_cases empty : trim row.hostname = []
    · simp [empty]
    · simp [empty]
  have hwaddr_ : row.field "hwaddr" = row.hwaddr := rfl
  rw [LeaseRow.apply, readRow, address, hwaddr, hwaddr_, Option.filter_some]
  by_cases declined : row.hwaddr = []
  · simp [declined]
  · rw [if_neg declined, if_pos (by simpa using declined)]
    dsimp only
    rw [expires, states, named]
    simp only [ne_eq, Int.natCast_eq_zero]
    rfl

theorem readLine_row (statics : String → Bool) (file : LeaseFile)
    (row : LeaseRow) (latest : List Lease) (i : Nat) :
    readLine statics
        ⟨(file.columns.map String.toList).zipIdx.reverse ++ [], latest⟩
        (file.line row.field, i + 1) =
      ⟨(file.columns.map String.toList).zipIdx.reverse ++ [],
        row.apply statics latest⟩ := by
  have fields := @LeaseFile.splitOn_line file _
    fun column _ => row.field_plain column
  have some_ : ((file.columns.map String.toList).zipIdx.reverse ++
      []).isEmpty = false := by
    obtain ⟨first, second, rest, columns⟩ := file.columns_two
    simp [columns]
  have reads : ∀ column ∈ ["address", "hwaddr", "expire", "hostname", "state"],
      ((((file.columns.map String.toList).zipIdx.reverse ++ []).lookup
          column.toList).bind fun idx => (file.columns.map row.field)[idx]?) =
        some (row.field column) := by
    intro column named
    have among : column ∈ file.columns := by
      rcases List.mem_cons.mp named with rfl | named
      · exact List.mem_of_head? file.address_first
      · exact file.columns_read column named
    obtain ⟨idx, at_, found⟩ := LeaseFile.lookup_column among
    rw [List.append_nil, found, Option.bind_some, List.getElem?_map, at_]
    rfl
  simp only [readLine, file.line_not_blank, Bool.false_eq_true, if_false,
    Nat.add_one_ne_zero, decide_false, Bool.false_and, some_, fields,
    readRow_field statics latest row _ reads]

/-- What is read of a lease file is what its rows do one after the other. -/
theorem parseCsv_text (statics : String → Bool) (file : LeaseFile) :
    parseCsv statics file.text =
      file.rows.foldl (LeaseRow.apply statics) [] := by
  have header := @LeaseFile.line_plain file _
    fun column among => (file.columns_plain column among).1
  have plain (row : LeaseRow) := @LeaseFile.line_plain file _
    fun column _ => row.field_plain column
  have read : lines file.text = file.line String.toList ::
      file.rows.map fun row => file.line row.field := by
    have whole : ∀ line ∈ file.line String.toList ::
        file.rows.map (fun row => file.line row.field),
        '\n' ∉ line ∧ chomp line = line := by
      rw [List.forall_mem_cons, List.forall_mem_map]
      exact ⟨header, fun row _ => plain row⟩
    rw [← map_chomp_eq_self fun line among => (whole line among).2]
    exact lines_unlines (List.cons_ne_nil _ _) fun line among =>
      (whole line among).1
  have rows : ∀ (rows : List LeaseRow) (latest : List Lease) (i : Nat),
      (((rows.map fun row => file.line row.field).zipIdx (i + 1)).foldl
        (readLine statics)
        ⟨(file.columns.map String.toList).zipIdx.reverse ++ [], latest⟩).latest =
      rows.foldl (LeaseRow.apply statics) latest := by
    intro rows
    induction rows with
    | nil =>
        intro latest i
        rfl
    | cons row rows ih =>
        intro latest i
        rw [List.map_cons, List.zipIdx_cons, List.foldl_cons, readLine_row,
          ih, List.foldl_cons]
  rw [parseCsv, read, List.zipIdx_cons, List.foldl_cons]
  have first : readLine statics ⟨[], []⟩ (file.line String.toList, 0) =
      ⟨(file.columns.map String.toList).zipIdx.reverse ++ [], []⟩ := by
    have starts : "address".toList.isPrefixOf (file.line String.toList) =
        true := by
      obtain ⟨address, second, rest, columns⟩ := file.columns_two
      have same := file.address_first
      rw [columns] at same
      cases same
      rw [List.isPrefixOf_iff_prefix, LeaseFile.line, columns, List.map_cons,
        List.intercalate_cons_of_ne_nil (by simp), List.append_assoc]
      exact List.prefix_append _ _
    have fields := @LeaseFile.splitOn_line file _
      fun column among => (file.columns_plain column among).1
    simp only [readLine, file.line_not_blank, Bool.false_eq_true, if_false,
      decide_true, starts, Bool.and_self, if_true, fields,
      LeaseFile.map_trim_columns]
  rw [first]
  exact rows file.rows [] 0

/-! ## The row that is kept of an address -/

/-- The rows with a MAC address since the last one of a non-zero state. -/
def sinceEnded (rows : List LeaseRow) : List LeaseRow :=
  rows.foldl (fun since row =>
    if row.hwaddr = [] then since
    else if row.state ≠ 0 then []
    else since ++ [row]) []

theorem sinceEnded_concat (rows : List LeaseRow) (row : LeaseRow) :
    sinceEnded (rows ++ [row]) =
      if row.hwaddr = [] then sinceEnded rows
      else if row.state ≠ 0 then []
      else sinceEnded rows ++ [row] := by
  rw [sinceEnded, List.foldl_append]
  rfl

theorem find?_erased (latest : List Lease) (erased ip : String) :
    (latest.filter fun lease => lease.ip ≠ erased).find?
        (fun lease => lease.ip = ip) =
      if erased = ip then none else latest.find? fun lease => lease.ip = ip := by
  rw [List.find?_filter]
  split
  · rename_i same
    subst same
    rw [List.find?_eq_none]
    intro lease _
    simp
  · rename_i other
    congr 1
    funext lease
    by_cases at_ : lease.ip = ip
    · simp [at_, Ne.symm other]
    · simp [at_]

theorem find?_lease_cons (statics : String → Bool) (row : LeaseRow)
    (latest : List Lease) (ip : String) :
    (row.lease statics :: latest).find? (fun lease => lease.ip = ip) =
      if row.ip = ip then some (row.lease statics)
      else latest.find? fun lease => lease.ip = ip := by
  have same : (row.lease statics).ip = row.ip := rfl
  rw [List.find?_cons, same]
  by_cases at_ : row.ip = ip
  · simp [at_]
  · simp [at_]

/-- One row, seen from one address. -/
theorem LeaseRow.find?_apply (statics : String → Bool) (latest : List Lease)
    (row : LeaseRow) (ip : String) :
    (row.apply statics latest).find? (fun lease => lease.ip = ip) =
      if row.ip ≠ ip ∨ row.hwaddr = [] then
        latest.find? fun lease => lease.ip = ip
      else if row.state ≠ 0 then none
      else
        match latest.find? fun lease => lease.ip = ip with
        | some prev =>
            if (row.expire : Int) ≤ prev.expire then some prev
            else some (row.lease statics)
        | none => some (row.lease statics) := by
  rw [LeaseRow.apply]
  by_cases declined : row.hwaddr = []
  · simp [declined]
  · simp only [declined, if_false, or_false]
    by_cases ended : row.state ≠ 0
    · rw [if_pos ended, if_pos ended, find?_erased]
      by_cases same : row.ip = ip
      · simp [same]
      · simp [same]
    · rw [if_neg ended, if_neg ended]
      by_cases same : row.ip = ip
      · subst same
        simp only [ne_eq, not_true_eq_false, if_false]
        cases held : latest.find? fun lease => lease.ip = row.ip with
        | none => simp [find?_lease_cons]
        | some prev =>
            dsimp only
            split
            · exact held
            · simp [find?_lease_cons]
      · simp only [ne_eq, same, not_false_eq_true, if_true]
        cases latest.find? fun lease => lease.ip = row.ip with
        | none => simp [find?_lease_cons, same]
        | some prev =>
            dsimp only
            split
            · rfl
            · rw [find?_lease_cons, if_neg same, find?_erased, if_neg same]

theorem LeaseRow.nodup_apply (statics : String → Bool) {latest : List Lease}
    (distinct : (latest.map Lease.ip).Nodup) (row : LeaseRow) :
    ((row.apply statics latest).map Lease.ip).Nodup := by
  have erased : ((latest.filter fun lease => lease.ip ≠ row.ip).map
      Lease.ip).Nodup := distinct.sublist (List.filter_sublist.map _)
  rw [LeaseRow.apply]
  split
  · exact distinct
  · split
    · exact erased
    · split
      · split
        · exact distinct
        · rw [List.map_cons, List.nodup_cons]
          refine ⟨?_, erased⟩
          intro among
          obtain ⟨lease, kept, same⟩ := List.mem_map.mp among
          have other := (List.mem_filter.mp kept).2
          exact of_decide_eq_true other same
      · rename_i absent
        rw [List.map_cons, List.nodup_cons]
        refine ⟨?_, distinct⟩
        intro among
        obtain ⟨lease, kept, same⟩ := List.mem_map.mp among
        rw [List.find?_eq_none] at absent
        exact absent lease kept (decide_eq_true same)

theorem kept_rows (statics : String → Bool) (rows : List LeaseRow) :
    ((rows.foldl (LeaseRow.apply statics) []).map Lease.ip).Nodup ∧
      ∀ ip, (rows.foldl (LeaseRow.apply statics) []).find?
          (fun lease => lease.ip = ip) =
        (firstGreatest LeaseRow.expire (sinceEnded (rowsOf ip rows))).map
          (LeaseRow.lease statics) := by
  induction rows using List.reverseRecOn with
  | nil => exact ⟨List.nodup_nil, fun ip => rfl⟩
  | append_singleton rows row ih =>
      obtain ⟨distinct, kept⟩ := ih
      rw [List.foldl_append, List.foldl_cons, List.foldl_nil]
      refine ⟨row.nodup_apply statics distinct, ?_⟩
      intro ip
      rw [row.find?_apply, kept, rowsOf, rowsOf, List.filter_append,
        List.filter_singleton]
      by_cases same : row.ip = ip
      · rw [decide_eq_true same, cond_true, sinceEnded_concat]
        by_cases declined : row.hwaddr = []
        · simp [declined]
        · by_cases ended : row.state ≠ 0
          · simp [same, declined, ended]
          · simp only [same, ne_eq, not_true_eq_false, declined, or_self,
              if_false, ended, firstGreatest_concat]
            cases firstGreatest LeaseRow.expire
                (sinceEnded (rows.filter fun row => row.ip = ip)) with
            | none => rfl
            | some prev =>
                have expire : (prev.lease statics).expire = prev.expire := rfl
                simp only [Option.map_some, expire, keepGreater,
                  Int.ofNat_le]
                split
                · rfl
                · rfl
      · rw [decide_eq_false same, cond_false, List.append_nil]
        simp [same]

/-! ## Whether it is the last row -/

/-- The rows name the same client. -/
def LeaseRow.SameClient (row other : LeaseRow) : Prop :=
  row.hwaddr.map Char.toLower = other.hwaddr.map Char.toLower ∧
    trim row.hostname = trim other.hostname

/-- The rows of an address go by expiry as they go by order: an active last row
has a MAC address, none since the lease ended expires later, and the first that
expires when it does names the same client; a last row that ends the lease has
nothing since the lease ended before it. -/
def LastRowTells (ip : String) (rows : List LeaseRow) : Prop :=
  ∀ last, (rowsOf ip rows).getLast? = some last →
    if last.active then
      last.hwaddr ≠ [] ∧
        (∀ row ∈ sinceEnded (rowsOf ip rows), row.expire ≤ last.expire) ∧
        ∀ row, (sinceEnded (rowsOf ip rows)).find?
          (fun row => row.expire = last.expire) = some row →
          row.SameClient last
    else sinceEnded (rowsOf ip rows) = []

theorem LeaseRow.lease_eq_iff (statics : String → Bool)
    {row other : LeaseRow} (same : row.ip = other.ip) :
    row.lease statics = other.lease statics ↔
      row.expire = other.expire ∧ row.SameClient other := by
  constructor
  · intro equal
    have macs := String.ofList_injective (congrArg Lease.mac equal)
    have expires : (row.expire : Int) = other.expire :=
      congrArg Lease.expire equal
    have hostnames := congrArg Lease.hostname equal
    refine ⟨Int.ofNat_inj.mp expires, macs, ?_⟩
    simp only [lease] at hostnames
    by_cases left : trim row.hostname = []
    · by_cases right : trim other.hostname = []
      · rw [left, right]
      · simp [left, right] at hostnames
    · by_cases right : trim other.hostname = []
      · simp [left, right] at hostnames
      · rw [if_neg left, if_neg right] at hostnames
        exact String.ofList_injective (Option.some.inj hostnames)
  · rintro ⟨expires, macs, hostnames⟩
    simp only [lease, same, expires, macs, hostnames]

theorem mem_sinceEnded {rows : List LeaseRow} {row : LeaseRow}
    (among : row ∈ sinceEnded rows) : row ∈ rows ∧ row.hwaddr ≠ [] := by
  induction rows using List.reverseRecOn with
  | nil => cases among
  | append_singleton rows last ih =>
      rw [sinceEnded_concat] at among
      split at among
      · exact ⟨List.mem_append_left _ (ih among).1, (ih among).2⟩
      · rename_i named
        split at among
        · cases among
        · rcases List.mem_append.mp among with earlier | same
          · exact ⟨List.mem_append_left _ (ih earlier).1, (ih earlier).2⟩
          · rw [List.mem_singleton.mp same]
            exact ⟨by simp, named⟩

/-- An active last row with a MAC address counts. -/
theorem last_mem_sinceEnded {rows : List LeaseRow} {last : LeaseRow}
    (isLast : rows.getLast? = some last) (named : last.hwaddr ≠ [])
    (active : last.active = true) : last ∈ sinceEnded rows := by
  obtain ⟨earlier, rfl⟩ := List.getLast?_eq_some_iff.mp isLast
  have state : last.state = 0 := by
    rw [LeaseRow.active, Bool.and_eq_true] at active
    exact of_decide_eq_true active.1
  rw [sinceEnded_concat, if_neg named, if_neg (not_not_intro state)]
  simp

theorem ip_of_mem_rowsOf {ip : String} {rows : List LeaseRow} {row : LeaseRow}
    (among : row ∈ rowsOf ip rows) : row.ip = ip :=
  of_decide_eq_true (List.mem_filter.mp among).2

theorem kept_eq_current_iff (statics : String → Bool) (ip : String)
    (rows : List LeaseRow) :
    (firstGreatest LeaseRow.expire (sinceEnded (rowsOf ip rows))).map
        (LeaseRow.lease statics) = currentLease statics rows ip ↔
      LastRowTells ip rows := by
  rw [currentLease, LastRowTells]
  have ips := fun row => @ip_of_mem_rowsOf ip rows row
  generalize rowsOf ip rows = rows at ips
  cases isLast : rows.getLast? with
  | none =>
      rw [List.getLast?_eq_none_iff] at isLast
      subst isLast
      simp [sinceEnded]
  | some last =>
      simp only [Option.some.injEq, forall_eq', Option.filter_some]
      by_cases active : last.active = true
      · simp only [active, if_true, Option.map_some]
        constructor
        · intro kept
          cases found : firstGreatest LeaseRow.expire (sinceEnded rows) with
          | none => simp [found] at kept
          | some best =>
              obtain ⟨bound, first⟩ := firstGreatest_spec LeaseRow.expire found
              obtain ⟨among, named⟩ :=
                mem_sinceEnded (List.mem_of_find?_eq_some first)
              rw [found, Option.map_some, Option.some.injEq,
                LeaseRow.lease_eq_iff statics ((ips _ among).trans
                  (ips _ (List.mem_of_getLast? isLast)).symm)] at kept
              obtain ⟨expires, client⟩ := kept
              rw [expires] at bound first
              refine ⟨?_, bound, ?_⟩
              · intro empty
                rw [LeaseRow.SameClient, empty] at client
                exact named (List.map_eq_nil_iff.mp client.1)
              · intro row other
                rw [first] at other
                cases other
                exact client
        · rintro ⟨named, bound, client⟩
          have counts := last_mem_sinceEnded isLast named active
          cases first : (sinceEnded rows).find?
              fun row => row.expire = last.expire with
          | none =>
              rw [List.find?_eq_none] at first
              exact absurd (decide_eq_true rfl) (first last counts)
          | some best =>
              have expires : best.expire = last.expire := by
                have found := List.find?_some first
                exact of_decide_eq_true found
              have greatest : firstGreatest LeaseRow.expire (sinceEnded rows) =
                  some best := by
                rw [firstGreatest_eq_some_iff, expires]
                exact ⟨bound, first⟩
              obtain ⟨among, _⟩ :=
                mem_sinceEnded (List.mem_of_find?_eq_some first)
              rw [greatest, Option.map_some, Option.some.injEq,
                LeaseRow.lease_eq_iff statics ((ips _ among).trans
                  (ips _ (List.mem_of_getLast? isLast)).symm)]
              exact ⟨expires, client best first⟩
      · simp only [active, Bool.false_eq_true, if_false, Option.map_none,
          Option.map_eq_none_iff, firstGreatest_eq_none_iff]

theorem readsCurrent_iff (statics : String → Bool) (file : LeaseFile) :
    ReadsCurrent statics file ↔ ∀ ip, LastRowTells ip file.rows := by
  obtain ⟨distinct, kept⟩ := kept_rows statics file.rows
  rw [ReadsCurrent, parseCsv_text]
  generalize file.rows.foldl (LeaseRow.apply statics) [] = latest
    at distinct kept
  have member (lease : Lease) : lease ∈ latest ↔
      latest.find? (fun other => other.ip = lease.ip) = some lease := by
    constructor
    · exact find?_of_distinct distinct
    · exact List.mem_of_find?_eq_some
  constructor
  · rintro ⟨_, reads⟩ ip
    rw [← kept_eq_current_iff statics, ← kept]
    cases found : latest.find? fun lease => lease.ip = ip with
    | some lease =>
        have at_ := List.find?_some found
        have same : lease.ip = ip := of_decide_eq_true at_
        rw [← same]
        exact ((reads lease).mp (List.mem_of_find?_eq_some found)).symm
    | none =>
        cases current : currentLease statics file.rows ip with
        | none => rfl
        | some lease =>
            have same : lease.ip = ip := by
              obtain ⟨row, active, rfl⟩ := Option.map_eq_some_iff.mp current
              have among := List.mem_of_getLast?
                (Option.filter_eq_some_iff.mp active).1
              exact ip_of_mem_rowsOf among
            rw [← same] at current found
            have among := (reads lease).mpr current
            rw [List.find?_eq_none] at found
            exact absurd (decide_eq_true rfl) (found lease among)
  · intro tells
    refine ⟨distinct, ?_⟩
    intro lease
    rw [member, kept, (kept_eq_current_iff statics _ _).mpr (tells _)]

/-- A row of a lease for an hour, or of its release. -/
def leaseRow (lifetime expire : Nat) (fits : expire < 2 ^ 63) : LeaseRow where
  address := "10.0.0.5".toList
  hwaddr := "aa:bb:cc:dd:ee:ff".toList
  validLifetime := lifetime
  expire := expire
  hostname := []
  state := 0
  other _ := []
  address_some := by decide
  address_plain := by decide
  hwaddr_plain := by decide
  hostname_plain := by decide
  other_plain _ := by decide
  expire_fits := fits
  state_fits := by decide

/-- A lease that was taken until 4600 and released at 2000. -/
def releasedFile : LeaseFile where
  columns := ["address", "hwaddr", "client_id", "valid_lifetime", "expire",
    "subnet_id", "fqdn_fwd", "fqdn_rev", "hostname", "state", "user_context",
    "pool_id"]
  rows := [leaseRow 3600 4600 (by decide), leaseRow 0 2000 (by decide)]
  address_first := rfl
  columns_read := by decide
  columns_distinct := by decide
  columns_plain := by decide

/-- A released lease is still reported. -/
theorem released_reported :
    ¬ ∀ (statics : String → Bool) (file : LeaseFile),
      ReadsCurrent statics file := by
  intro always
  have reads := (always (fun _ => false) releasedFile).2
    ((leaseRow 3600 4600 (by decide)).lease fun _ => false)
  rw [parseCsv_text] at reads
  have none : currentLease (fun _ => false) releasedFile.rows "10.0.0.5" =
      none := by decide
  have reported := reads.mp (by decide)
  rw [show ((leaseRow 3600 4600 (by decide)).lease fun _ => false).ip =
    "10.0.0.5" from rfl, none] at reported
  cases reported

end QuartzFire.Devices
