import QuartzFire.Foundation.TransitionSystem
import QuartzFire.Devices.Accountant
import Mathlib.Data.List.Nodup

/-!
# Two feeds, one accountant

The snapshot loop captures the text of `conntrack -L` and takes the lock for a
whole pass over it some time later; the destroy loop takes the lock for each
DESTROY event it reads.  A connection is followed through both feeds by what
has been credited to it.
-/

namespace QuartzFire.Devices

/-- A line of conntrack output, with the connection it is about. -/
structure Line (Conn : Type) where
  conn : Conn
  counters : Counted

def Line.flow {Conn Key : Type} (line : Line Conn) (key : Conn → Key) :
    Flow Key :=
  ⟨key line.conn, line.counters.orig, line.counters.reply⟩

/-- The accountant with what it has credited to each connection so far. -/
structure Ledger (Conn Key : Type) where
  acct : Accountant Key
  credited : Conn → Counted
  hits : Conn → Nat

namespace Ledger

variable {Conn Key : Type} [DecidableEq Conn] [DecidableEq Key]

def observe (ledger : Ledger Conn Key) (key : Conn → Key) (line : Line Conn)
    (remove : Bool) : Ledger Conn Key :=
  let flow := line.flow key
  { acct := (ledger.acct.observeRaw flow remove).2
    credited := Function.update ledger.credited line.conn
      (ledger.credited line.conn + ledger.acct.gain flow remove)
    hits := Function.update ledger.hits line.conn
      (ledger.hits line.conn + ledger.acct.hits flow remove) }

def observeAll (ledger : Ledger Conn Key) (key : Conn → Key)
    (text : List (Line Conn)) : Ledger Conn Key :=
  text.foldl (fun ledger line => ledger.observe key line false) ledger

/-- One pass of the snapshot loop, under the lock. -/
def pass (ledger : Ledger Conn Key) (key : Conn → Key)
    (text : List (Line Conn)) : Ledger Conn Key :=
  let observed := ledger.observeAll key text
  let acct := observed.acct.retainKeys (text.map fun line => key line.conn)
  { observed with acct := if !acct.primed then acct.markPrimed else acct }

end Ledger

structure World (Conn Key : Type) where
  ledger : Ledger Conn Key
  /-- Connections in the kernel's table. -/
  table : List Conn
  opened : List Conn
  counters : Conn → Counted
  /-- DESTROY events not handled yet, oldest first. -/
  events : List (Line Conn)
  /-- The text a snapshot has captured and not processed. -/
  captured : Option (List (Line Conn))
  /-- Counters in the first text captured. -/
  baseline : Conn → Counted

namespace World

variable {Conn Key : Type}

def line (world : World Conn Key) (conn : Conn) : Line Conn :=
  ⟨conn, world.counters conn⟩

/-- Connections an observation may still come from. -/
def outstanding (world : World Conn Key) : List Conn :=
  world.table ++ world.events.map Line.conn

end World

inductive Action (Conn : Type) where
  | opens (conn : Conn)
  | grows (conn : Conn) (bytes : Counted)
  | dies (conn : Conn)
  /-- The stream is restarted or overrun and an event is not delivered. -/
  | loses (index : Nat)
  /-- `conntrack -L` lists the table in some order. -/
  | capture (order : List Conn)
  | process
  /-- The destroy loop handles the oldest event. -/
  | handle

section System

variable {Conn Key : Type} [DecidableEq Conn] [DecidableEq Key]
  (key : Conn → Key)

def next (world : World Conn Key) : Action Conn → Option (World Conn Key)
  | .opens conn =>
      if conn ∈ world.opened then none
      else some { world with
        table := conn :: world.table
        opened := conn :: world.opened
        counters := Function.update world.counters conn 0 }
  | .grows conn bytes =>
      if conn ∈ world.table then
        some { world with
          counters := Function.update world.counters conn
            (world.counters conn + bytes) }
      else none
  | .dies conn =>
      if conn ∈ world.table then
        some { world with
          table := world.table.erase conn
          events := world.events ++ [world.line conn] }
      else none
  | .loses index =>
      some { world with events := world.events.eraseIdx index }
  | .capture order =>
      if world.captured.isNone ∧ order.Perm world.table then
        some { world with
          captured := some (order.map world.line)
          baseline :=
            if world.ledger.acct.primed then world.baseline
            else fun conn =>
              if conn ∈ world.table then world.counters conn else 0 }
      else none
  | .process =>
      world.captured.map fun text => { world with
        ledger := world.ledger.pass key text
        captured := none }
  | .handle =>
      match world.events with
      | [] => none
      | event :: rest => some { world with
          ledger := world.ledger.observe key event true
          events := rest }

/-- A daemon about to start.  What is open by then is opened by steps before
the daemon's first. -/
structure Starts (world : World Conn Key) : Prop where
  acct : world.ledger.acct = .new
  credited : ∀ conn, world.ledger.credited conn = 0
  hits : ∀ conn, world.ledger.hits conn = 0
  baseline : ∀ conn, world.baseline conn = 0
  table : world.table = []
  events : world.events = []
  captured : world.captured = none

def system : TransitionSystem (World Conn Key) (Action Conn) where
  Initial := Starts
  next := next key

/-- No byte of a connection is credited twice, and none from before the
baseline; the connection is counted as new at most once. -/
structure CountedOnce (world : World Conn Key) (conn : Conn) : Prop where
  bytes : world.ledger.credited conn + world.baseline conn ≤
    world.counters conn
  hits : world.ledger.hits conn ≤ 1

/-- No observation meets the slot of another generation: a key is reused only
once the DESTROY event of its last connection is out of the way, a pass drops
no slot whose DESTROY event is still to come, and no event is handled while
its key stands in a text to be processed. -/
def SlotsKept (world : World Conn Key) : Action Conn → Prop
  | .opens conn => ∀ other ∈ world.outstanding, key other ≠ key conn
  | .process =>
      world.ledger.acct.primed = true →
        ∀ text ∈ world.captured, ∀ event ∈ world.events,
          (world.ledger.acct.counted (key event.conn)).isSome = true →
            key event.conn ∈ text.map fun line => key line.conn
  | .handle =>
      world.ledger.acct.primed = true →
        ∀ text ∈ world.captured, ∀ event ∈ world.events.head?,
          key event.conn ∉ text.map fun line => key line.conn
  | _ => True

end System

/-! ## Following one connection through the ledger -/

section Following

variable {Conn Key : Type}

/-- How much of a connection, seen up to the counters `limit`, the ledger can
still credit: nothing is known of it, or its slot covers what was credited. -/
inductive Followed (ledger : Ledger Conn Key) (key : Conn → Key) (conn : Conn)
    (base limit : Counted) : Prop where
  | unseen :
      ledger.credited conn = 0 → ledger.hits conn = 0 → base = 0 →
      Followed ledger key conn base limit
  | tracked (slot : Counted) :
      ledger.acct.counted (key conn) = some slot →
      ledger.credited conn + base ≤ slot → slot ≤ limit →
      ledger.hits conn ≤ 1 →
      Followed ledger key conn base limit

namespace Followed

variable {ledger after : Ledger Conn Key} {key : Conn → Key} {conn : Conn}
  {base limit : Counted}

theorem bytes (followed : Followed ledger key conn base limit) :
    ledger.credited conn + base ≤ limit := by
  cases followed with
  | unseen credited hits none =>
      rw [credited, none]
      exact ⟨Nat.zero_le _, Nat.zero_le _⟩
  | tracked slot found covered grown hits => exact covered.trans grown

theorem hits (followed : Followed ledger key conn base limit) :
    ledger.hits conn ≤ 1 := by
  cases followed with
  | unseen credited hits none => omega
  | tracked slot found covered grown hits => exact hits

theorem mono {larger : Counted} (followed : Followed ledger key conn base limit)
    (grown : limit ≤ larger) : Followed ledger key conn base larger := by
  cases followed with
  | unseen credited hits none => exact .unseen credited hits none
  | tracked slot found covered within hits =>
      exact .tracked slot found covered (within.trans grown) hits

/-- Only the slot, the bytes and the count of the connection matter. -/
theorem congr (followed : Followed ledger key conn base limit)
    (slot : after.acct.counted (key conn) = ledger.acct.counted (key conn))
    (credited : after.credited conn = ledger.credited conn)
    (hits : after.hits conn = ledger.hits conn) :
    Followed after key conn base limit := by
  cases followed with
  | unseen nothing uncounted none =>
      exact .unseen (credited.trans nothing) (hits.trans uncounted) none
  | tracked value found covered grown once =>
      refine .tracked value (slot.trans found) ?_ grown ?_
      · rw [credited]
        exact covered
      · rw [hits]
        exact once

/-- A followed connection without a slot was never seen. -/
theorem unseen_of_no_slot (followed : Followed ledger key conn base limit)
    (missing : ¬ (ledger.acct.counted (key conn)).isSome = true) :
    ledger.credited conn = 0 ∧ ledger.hits conn = 0 ∧ base = 0 := by
  cases followed with
  | unseen credited hits none => exact ⟨credited, hits, none⟩
  | tracked slot found covered grown hits => simp [found] at missing

end Followed

namespace Ledger

variable [DecidableEq Conn] [DecidableEq Key] {ledger : Ledger Conn Key}
  {key : Conn → Key} {line : Line Conn} {base : Counted}

@[simp] theorem observe_primed (ledger : Ledger Conn Key) (key : Conn → Key)
    (line : Line Conn) (remove : Bool) :
    (ledger.observe key line remove).acct.primed = ledger.acct.primed :=
  ledger.acct.observeRaw_primed _ _

theorem observe_other_conn (ledger : Ledger Conn Key) (key : Conn → Key)
    {line : Line Conn} (remove : Bool) {conn : Conn} (other : conn ≠ line.conn) :
    (ledger.observe key line remove).credited conn = ledger.credited conn ∧
      (ledger.observe key line remove).hits conn = ledger.hits conn :=
  ⟨Function.update_of_ne other _ _, Function.update_of_ne other _ _⟩

theorem observe_other_key (remove : Bool) {slotKey : Key}
    (other : slotKey ≠ key line.conn) :
    (ledger.observe key line remove).acct.counted slotKey =
      ledger.acct.counted slotKey :=
  ledger.acct.observeRaw_other (line.flow key) remove other

theorem observe_slot :
    (ledger.observe key line false).acct.counted (key line.conn) =
      some line.counters := by
  have written := ledger.acct.observeRaw_counted (line.flow key) false
  exact (congrFun written (key line.conn)).trans
    (Function.update_self _ _ _)

/-- An observation of a followed connection stays within what it shows. -/
theorem observe_followed (remove : Bool)
    (followed : Followed ledger key line.conn base line.counters) :
    (ledger.observe key line remove).credited line.conn + base ≤
        line.counters ∧
      (ledger.observe key line remove).hits line.conn ≤ 1 := by
  simp only [observe, Function.update_self]
  cases followed with
  | unseen credited hits none =>
      have gain := Accountant.gain_le ledger.acct (line.flow key) remove
      have once := Accountant.hits_le_one ledger.acct (line.flow key) remove
      rw [credited, hits, none]
      refine ⟨?_, by omega⟩
      simpa [Counted.le_def, Line.flow, Flow.counters] using gain
  | tracked slot found covered grown hits =>
      have gain : slot + ledger.acct.gain (line.flow key) remove ≤
          (line.flow key).counters :=
        Accountant.gain_tracked found grown remove
      have once : ledger.acct.hits (line.flow key) remove = 0 :=
        Accountant.hits_tracked found grown remove
      rw [once]
      refine ⟨?_, hits⟩
      simp only [Counted.le_def, Counted.add_orig, Counted.add_reply, Line.flow,
        Flow.counters] at gain covered ⊢
      omega

theorem observe_unprimed (ledger : Ledger Conn Key) (key : Conn → Key)
    (line : Line Conn) (remove : Bool) (unprimed : ledger.acct.primed = false) :
    (ledger.observe key line remove).credited = ledger.credited ∧
      (ledger.observe key line remove).hits = ledger.hits := by
  simp only [observe, Accountant.gain_unprimed remove unprimed,
    Accountant.hits_unprimed remove unprimed, Nat.add_zero,
    Function.update_eq_self, and_true]
  exact Function.update_eq_self line.conn ledger.credited

/-! ### A whole pass -/

variable {text : List (Line Conn)}

theorem observeAll_other_conn (ledger : Ledger Conn Key) (key : Conn → Key)
    {conn : Conn} (others : ∀ line ∈ text, line.conn ≠ conn) :
    (ledger.observeAll key text).credited conn = ledger.credited conn ∧
      (ledger.observeAll key text).hits conn = ledger.hits conn := by
  induction text generalizing ledger with
  | nil => exact ⟨rfl, rfl⟩
  | cons head tail ih =>
      have later := ih (ledger.observe key head false)
        fun line member => others line (List.mem_cons_of_mem _ member)
      have first := ledger.observe_other_conn key false
        (others head List.mem_cons_self).symm
      exact ⟨later.1.trans first.1, later.2.trans first.2⟩

theorem observeAll_other_key {slotKey : Key}
    (others : slotKey ∉ text.map fun line => key line.conn) :
    (ledger.observeAll key text).acct.counted slotKey =
      ledger.acct.counted slotKey := by
  induction text generalizing ledger with
  | nil => rfl
  | cons head tail ih =>
      rw [List.map_cons, List.mem_cons, not_or] at others
      exact (ih others.2).trans (observe_other_key false others.1)

theorem observeAll_unprimed (ledger : Ledger Conn Key) (key : Conn → Key)
    (text : List (Line Conn)) (unprimed : ledger.acct.primed = false) :
    (ledger.observeAll key text).credited = ledger.credited ∧
      (ledger.observeAll key text).hits = ledger.hits := by
  induction text generalizing ledger with
  | nil => exact ⟨rfl, rfl⟩
  | cons head tail ih =>
      have first := ledger.observe_unprimed key head false unprimed
      have later := ih (ledger.observe key head false)
        ((ledger.observe_primed key head false).trans unprimed)
      exact ⟨later.1.trans first.1, later.2.trans first.2⟩

omit [DecidableEq Conn] [DecidableEq Key] in
/-- No other line of the text speaks of the connection or of its key. -/
theorem apart_of_nodup {head : Line Conn}
    (keys : ((head :: text).map fun line => key line.conn).Nodup) :
    key head.conn ∉ text.map (fun line => key line.conn) ∧
      ∀ line ∈ text, line.conn ≠ head.conn := by
  rw [List.map_cons, List.nodup_cons] at keys
  refine ⟨keys.1, ?_⟩
  intro line member same
  exact keys.1 (List.mem_map.mpr ⟨line, member, congrArg key same⟩)

theorem observeAll_slot
    (keys : (text.map fun line => key line.conn).Nodup)
    {line : Line Conn} (member : line ∈ text) :
    (ledger.observeAll key text).acct.counted (key line.conn) =
      some line.counters := by
  induction text generalizing ledger with
  | nil => cases member
  | cons head tail ih =>
      rcases List.mem_cons.mp member with rfl | later
      · exact (observeAll_other_key (apart_of_nodup keys).1).trans observe_slot
      · exact ih (List.nodup_cons.mp keys).2 later

theorem observeAll_followed {base : Conn → Counted}
    (keys : (text.map fun line => key line.conn).Nodup)
    (followed : ∀ line ∈ text,
      Followed ledger key line.conn (base line.conn) line.counters)
    {line : Line Conn} (member : line ∈ text) :
    (ledger.observeAll key text).credited line.conn + base line.conn ≤
        line.counters ∧
      (ledger.observeAll key text).hits line.conn ≤ 1 := by
  induction text generalizing ledger with
  | nil => cases member
  | cons head tail ih =>
      obtain ⟨keyApart, connApart⟩ := apart_of_nodup keys
      rcases List.mem_cons.mp member with rfl | later
      · have first := observe_followed false
          (followed line List.mem_cons_self)
        have rest := (ledger.observe key line false).observeAll_other_conn key
          connApart
        rw [observeAll, List.foldl_cons, ← observeAll, rest.1, rest.2]
        exact first
      · refine ih (List.nodup_cons.mp keys).2 ?_ later
        intro next next_mem
        have untouched := ledger.observe_other_conn key false
          (connApart next next_mem)
        refine (followed next (List.mem_cons_of_mem _ next_mem)).congr
          (observe_other_key false ?_) untouched.1 untouched.2
        intro same
        exact keyApart (List.mem_map.mpr ⟨next, next_mem, same⟩)

@[simp] theorem pass_primed (ledger : Ledger Conn Key) (key : Conn → Key)
    (text : List (Line Conn)) : (ledger.pass key text).acct.primed = true := by
  simp only [pass]
  split
  · rfl
  · rename_i primed
    simpa using primed

theorem pass_counted (slotKey : Key) :
    (ledger.pass key text).acct.counted slotKey =
      if slotKey ∈ text.map (fun line => key line.conn) then
        (ledger.observeAll key text).acct.counted slotKey
      else none := by
  simp only [pass]
  split <;> rfl

theorem pass_followed {base : Conn → Counted}
    (keys : (text.map fun line => key line.conn).Nodup)
    (followed : ∀ line ∈ text,
      Followed ledger key line.conn (base line.conn) line.counters)
    {line : Line Conn} (member : line ∈ text) :
    Followed (ledger.pass key text) key line.conn (base line.conn)
      line.counters := by
  have within := observeAll_followed keys followed member
  refine .tracked line.counters ?_ within.1 le_rfl within.2
  rw [pass_counted, if_pos (List.mem_map.mpr ⟨line, member, rfl⟩),
    observeAll_slot keys member]

end Ledger

end Following

/-! ## What every step keeps -/

section Runs

variable {Conn Key : Type} {key : Conn → Key} {world after : World Conn Key}

def World.followed (world : World Conn Key) (key : Conn → Key) (conn : Conn)
    (limit : Counted) : Prop :=
  Followed world.ledger key conn (world.baseline conn) limit

def World.Unseen (world : World Conn Key) (conn : Conn) : Prop :=
  world.ledger.credited conn = 0 ∧ world.ledger.hits conn = 0 ∧
    world.baseline conn = 0

def Listed (text : List (Line Conn)) (conn : Conn) : Prop :=
  ∃ line ∈ text, line.conn = conn

/-- The text on its way to the accountant. -/
structure Captured (key : Conn → Key) (world : World Conn Key)
    (text : List (Line Conn)) : Prop where
  keys : (text.map fun line => key line.conn).Nodup
  opened : ∀ line ∈ text, line.conn ∈ world.opened
  stale : ∀ line ∈ text, line.counters ≤ world.counters line.conn
  /-- Before the first pass the text is the baseline. -/
  based : world.ledger.acct.primed = false →
    (∀ line ∈ text, world.baseline line.conn = line.counters) ∧
      ∀ conn, ¬ Listed text conn → world.baseline conn = 0
  listed : world.ledger.acct.primed = true →
    ∀ line ∈ text, world.followed key line.conn line.counters
  /-- What is open, or shares a key, and is not listed was opened later. -/
  later : world.ledger.acct.primed = true →
    ∀ conn ∈ world.outstanding, ¬ Listed text conn →
      conn ∈ world.table ∨ key conn ∈ text.map (fun line => key line.conn) →
        world.Unseen conn

structure Sound (key : Conn → Key) (world : World Conn Key) : Prop where
  keys : (world.outstanding.map key).Nodup
  opened : ∀ conn ∈ world.outstanding, conn ∈ world.opened
  unopened : ∀ conn, conn ∉ world.opened → world.Unseen conn
  final : ∀ event ∈ world.events, event.counters = world.counters event.conn
  countedOnce : ∀ conn, CountedOnce world conn
  silent : world.ledger.acct.primed = false →
    (∀ slotKey, world.ledger.acct.counted slotKey = none) ∧
      ∀ conn, world.ledger.credited conn = 0 ∧ world.ledger.hits conn = 0
  followed : world.ledger.acct.primed = true →
    ∀ conn ∈ world.outstanding,
      world.followed key conn (world.counters conn)
  captured : ∀ text ∈ world.captured, Captured key world text

theorem World.Unseen.followed {conn : Conn} (unseen : world.Unseen conn)
    (limit : Counted) : world.followed key conn limit :=
  .unseen unseen.1 unseen.2.1 unseen.2.2

theorem CountedOnce.of_followed (key : Conn → Key) {conn : Conn}
    (followed : world.followed key conn (world.counters conn)) :
    CountedOnce world conn :=
  ⟨followed.bytes, followed.hits⟩

theorem Sound.start (starts : Starts world) : Sound key world := by
  have unseen : ∀ conn, world.Unseen conn := fun conn =>
    ⟨starts.credited conn, starts.hits conn, starts.baseline conn⟩
  have nobody : world.outstanding = [] := by
    simp [World.outstanding, starts.table, starts.events]
  constructor
  · simp [nobody]
  · simp [nobody]
  · exact fun conn _ => unseen conn
  · simp [starts.events]
  · exact fun conn => .of_followed key ((unseen conn).followed _)
  · rw [starts.acct]
    exact fun _ => ⟨fun _ => rfl, fun conn =>
      ⟨starts.credited conn, starts.hits conn⟩⟩
  · rw [starts.acct]
    exact fun primed => nomatch primed
  · simp [starts.captured]

namespace Sound

/-- Equal keys among what is outstanding mean the same connection. -/
theorem eq_of_key (sound : Sound key world) {left right : Conn}
    (left_mem : left ∈ world.outstanding)
    (right_mem : right ∈ world.outstanding)
    (same : key left = key right) : left = right :=
  List.inj_on_of_nodup_map sound.keys left_mem right_mem same

theorem outstanding_nodup (sound : Sound key world) :
    world.outstanding.Nodup :=
  sound.keys.of_map _

theorem dead (sound : Sound key world) {event : Line Conn}
    (member : event ∈ world.events) : event.conn ∉ world.table := by
  intro live
  have apart := List.disjoint_of_nodup_append sound.outstanding_nodup
  exact apart live (List.mem_map.mpr ⟨event, member, rfl⟩)

/-! ### Steps of the kernel -/

/-- A step that leaves the ledger alone and is about the connections open so
far, or about one never opened before. -/
structure Outside (world after : World Conn Key) : Prop where
  ledger : after.ledger = world.ledger
  baseline : after.baseline = world.baseline
  captured : after.captured = world.captured
  opened : ∀ conn ∈ world.opened, conn ∈ after.opened
  counters : ∀ conn ∈ world.opened,
    world.counters conn ≤ after.counters conn
  outstanding : ∀ conn ∈ after.outstanding,
    conn ∈ world.outstanding ∨ conn ∉ world.opened
  table : ∀ conn ∈ after.table, conn ∈ world.table ∨ conn ∉ world.opened

theorem outside (sound : Sound key world) (outside : Outside world after)
    (keys : (after.outstanding.map key).Nodup)
    (opened : ∀ conn ∈ after.outstanding, conn ∈ after.opened)
    (final : ∀ event ∈ after.events,
      event.counters = after.counters event.conn) : Sound key after := by
  obtain ⟨ledger, baseline, captured, grown, counters, outstanding, table⟩ :=
    outside
  have unseen : ∀ conn, after.Unseen conn ↔ world.Unseen conn := by
    simp [World.Unseen, ledger, baseline]
  have followed : ∀ conn limit, after.followed key conn limit ↔
      world.followed key conn limit := by
    simp [World.followed, ledger, baseline]
  refine ⟨keys, opened, ?_, final, ?_, ?_, ?_, ?_⟩
  · intro conn fresh
    exact (unseen conn).mpr (sound.unopened conn fun old => fresh (grown _ old))
  · intro conn
    by_cases old : conn ∈ world.opened
    · have before := sound.countedOnce conn
      refine ⟨?_, ?_⟩
      · rw [ledger, baseline]
        exact before.bytes.trans (counters conn old)
      · rw [ledger]
        exact before.hits
    · exact .of_followed key
        (((unseen conn).mpr (sound.unopened conn old)).followed _)
  · rw [ledger]
    exact sound.silent
  · rw [ledger]
    intro primed conn member
    rw [followed]
    by_cases old : conn ∈ world.opened
    · have before := (outstanding conn member).resolve_right (absurd old)
      exact (sound.followed primed conn before).mono (counters conn old)
    · exact (sound.unopened conn old).followed _
  · rw [captured]
    intro text member
    obtain ⟨distinct, known, stale, based, listed, later⟩ :=
      sound.captured text member
    refine ⟨distinct, ?_, ?_, ?_, ?_, ?_⟩
    · exact fun line on => grown _ (known line on)
    · exact fun line on => (stale line on).trans (counters _ (known line on))
    · rw [ledger, baseline]
      exact based
    · rw [ledger]
      exact fun primed line on => (followed _ _).mpr (listed primed line on)
    · rw [ledger]
      intro primed conn member unlisted shares
      rw [unseen]
      by_cases old : conn ∈ world.opened
      · refine later primed conn
          ((outstanding conn member).resolve_right (absurd old)) unlisted ?_
        refine shares.imp_left fun live => ?_
        exact (table conn live).resolve_right (absurd old)
      · exact sound.unopened conn old

theorem fewer_events (sound : Sound key world) {events : List (Line Conn)}
    (fewer : events.Sublist world.events) :
    Sound key { world with events := events } := by
  have subset : (world.table ++ events.map Line.conn).Sublist
      world.outstanding :=
    List.Sublist.append_left (fewer.map Line.conn) _
  exact sound.outside ⟨rfl, rfl, rfl, fun _ old => old, fun _ _ => le_rfl,
    fun _ member => .inl (subset.subset member), fun _ member => .inl member⟩
    (sound.keys.sublist (subset.map key))
    (fun conn member => sound.opened conn (subset.subset member))
    (fun event member => sound.final event (fewer.subset member))

section Steps

variable [DecidableEq Conn]

theorem opens (sound : Sound key world) {conn : Conn}
    (fresh : conn ∉ world.opened)
    (reused : ∀ other ∈ world.outstanding, key other ≠ key conn) :
    Sound key { world with
      table := conn :: world.table
      opened := conn :: world.opened
      counters := Function.update world.counters conn 0 } := by
  have kept : ∀ other ∈ world.opened,
      Function.update world.counters conn 0 other = world.counters other := by
    intro other old
    refine Function.update_of_ne ?_ _ _
    rintro rfl
    exact fresh old
  refine sound.outside ⟨rfl, rfl, rfl, ?_, ?_, ?_, ?_⟩ ?_ ?_ ?_
  · exact fun other old => List.mem_cons_of_mem _ old
  · exact fun other old => (kept other old).ge
  · intro other member
    rcases List.mem_cons.mp member with rfl | before
    · exact .inr fresh
    · exact .inl before
  · intro other member
    rcases List.mem_cons.mp member with rfl | before
    · exact .inr fresh
    · exact .inl before
  · refine List.nodup_cons.mpr ⟨?_, sound.keys⟩
    intro member
    obtain ⟨other, before, same⟩ := List.mem_map.mp member
    exact reused other before same
  · exact List.forall_mem_cons.mpr ⟨List.mem_cons_self,
      fun other before => List.mem_cons_of_mem _ (sound.opened other before)⟩
  · intro event member
    have old := sound.opened event.conn
      (List.mem_append_right _ (List.mem_map.mpr ⟨event, member, rfl⟩))
    exact (sound.final event member).trans (kept _ old).symm

theorem grows (sound : Sound key world) {conn : Conn}
    (live : conn ∈ world.table) (bytes : Counted) :
    Sound key { world with
      counters := Function.update world.counters conn
        (world.counters conn + bytes) } := by
  refine sound.outside ⟨rfl, rfl, rfl, fun _ old => old, ?_,
    fun _ before => .inl before, fun _ before => .inl before⟩ sound.keys
    sound.opened ?_
  · intro other _
    dsimp only
    by_cases same : other = conn
    · subst same
      rw [Function.update_self]
      exact ⟨Nat.le_add_right _ _, Nat.le_add_right _ _⟩
    · rw [Function.update_of_ne same]
  · intro event member
    have other : event.conn ≠ conn := by
      rintro rfl
      exact sound.dead member live
    dsimp only
    rw [Function.update_of_ne other]
    exact sound.final event member

theorem dies (sound : Sound key world) {conn : Conn}
    (live : conn ∈ world.table) :
    Sound key { world with
      table := world.table.erase conn
      events := world.events ++ [world.line conn] } := by
  have same : (world.table.erase conn ++
      (world.events ++ [world.line conn]).map Line.conn).Perm
        world.outstanding := by
    rw [List.map_append, ← List.append_assoc]
    refine (List.perm_append_singleton conn _).trans ?_
    exact (List.perm_cons_erase live).symm.append_right _
  refine sound.outside ⟨rfl, rfl, rfl, fun _ old => old, fun _ _ => le_rfl,
    ?_, ?_⟩ ?_ ?_ ?_
  · exact fun other member => .inl (same.mem_iff.mp member)
  · exact fun other member => .inl (List.mem_of_mem_erase member)
  · exact (same.map key).nodup_iff.mpr sound.keys
  · exact fun other member => sound.opened other (same.mem_iff.mp member)
  · intro event member
    rcases List.mem_append.mp member with before | last
    · exact sound.final event before
    · rw [List.mem_singleton.mp last]
      rfl

/-! ### Steps of the daemon -/

section Capture

variable {order : List Conn} (lists : order.Perm world.table)
include lists

omit [DecidableEq Conn] in
theorem listed_captured (conn : Conn) :
    Listed (order.map world.line) conn ↔ conn ∈ world.table := by
  rw [← lists.mem_iff]
  simp [Listed, World.line]

omit [DecidableEq Conn] in
theorem mem_captured {line : Line Conn} (on : line ∈ order.map world.line) :
    line.conn ∈ world.table ∧ line.counters = world.counters line.conn := by
  obtain ⟨conn, member, rfl⟩ := List.mem_map.mp on
  exact ⟨lists.mem_iff.mp member, rfl⟩

omit [DecidableEq Conn] in
theorem captured_keys (sound : Sound key world) :
    ((order.map world.line).map fun line => key line.conn).Nodup := by
  rw [List.map_map]
  exact (lists.map key).nodup_iff.mpr
    (sound.keys.sublist ((List.sublist_append_left _ _).map key))

omit [DecidableEq Conn] in
theorem capture_primed (sound : Sound key world)
    (primed : world.ledger.acct.primed = true) :
    Sound key { world with captured := some (order.map world.line) } := by
  refine ⟨sound.keys, sound.opened, sound.unopened, sound.final, ?_,
    sound.silent, sound.followed, ?_⟩
  · exact fun conn => ⟨(sound.countedOnce conn).bytes,
      (sound.countedOnce conn).hits⟩
  intro text member
  obtain rfl := Option.some.inj member
  refine ⟨captured_keys lists sound, ?_, ?_, ?_, ?_, ?_⟩
  · intro line on
    exact sound.opened _ (List.mem_append_left _ (mem_captured lists on).1)
  · exact fun line on => (mem_captured lists on).2.le
  · exact fun unprimed => Bool.noConfusion (primed.symm.trans unprimed)
  · intro _ line on
    obtain ⟨live, shown⟩ := mem_captured lists on
    rw [shown]
    exact sound.followed primed _ (List.mem_append_left _ live)
  · intro _ conn member unlisted shares
    rw [listed_captured lists] at unlisted
    rcases shares with live | shared
    · exact absurd live unlisted
    · obtain ⟨line, on, same⟩ := List.mem_map.mp shared
      have live := (mem_captured lists on).1
      have one := sound.eq_of_key (List.mem_append_left _ live) member same
      exact absurd (one ▸ live) unlisted

theorem capture_first (sound : Sound key world)
    (unprimed : world.ledger.acct.primed = false) :
    Sound key { world with
      captured := some (order.map world.line)
      baseline := fun conn =>
        if conn ∈ world.table then world.counters conn else 0 } := by
  have silent := (sound.silent unprimed).2
  refine ⟨sound.keys, sound.opened, ?_, sound.final, ?_, sound.silent, ?_, ?_⟩
  · intro conn fresh
    have closed : conn ∉ world.table := fun live =>
      fresh (sound.opened conn (List.mem_append_left _ live))
    exact ⟨(silent conn).1, (silent conn).2, if_neg closed⟩
  · intro conn
    constructor
    · dsimp only
      rw [(silent conn).1]
      split
      · simp [Counted.le_def]
      · exact ⟨Nat.zero_le _, Nat.zero_le _⟩
    · exact (silent conn).2.trans_le (Nat.zero_le 1)
  · exact fun primed => Bool.noConfusion (unprimed.symm.trans primed)
  intro text member
  obtain rfl := Option.some.inj member
  refine ⟨captured_keys lists sound, ?_, ?_, fun _ => ⟨?_, ?_⟩, ?_, ?_⟩
  · intro line on
    exact sound.opened _ (List.mem_append_left _ (mem_captured lists on).1)
  · exact fun line on => (mem_captured lists on).2.le
  · intro line on
    obtain ⟨live, shown⟩ := mem_captured lists on
    exact (if_pos live).trans shown.symm
  · exact fun conn unlisted =>
      if_neg fun live => unlisted ((listed_captured lists conn).mpr live)
  · exact fun primed => Bool.noConfusion (unprimed.symm.trans primed)
  · exact fun primed => Bool.noConfusion (unprimed.symm.trans primed)

theorem capture (sound : Sound key world) :
    Sound key { world with
      captured := some (order.map world.line)
      baseline :=
        if world.ledger.acct.primed then world.baseline
        else fun conn =>
          if conn ∈ world.table then world.counters conn else 0 } := by
  cases primed : world.ledger.acct.primed with
  | true => exact sound.capture_primed lists primed
  | false => exact sound.capture_first lists primed

end Capture

variable [DecidableEq Key]

section Process

variable {text : List (Line Conn)} (sound : Sound key world)
  (reads : Captured key world text)
include sound reads

omit [DecidableEq Conn] [DecidableEq Key] in
/-- What a pass does not list was not credited anything. -/
theorem unseen_of_unlisted
    (awaited : world.ledger.acct.primed = true →
      ∀ event ∈ world.events,
        (world.ledger.acct.counted (key event.conn)).isSome = true →
          key event.conn ∈ text.map fun line => key line.conn)
    {conn : Conn} (member : conn ∈ world.outstanding)
    (unlisted : ¬ Listed text conn) : world.Unseen conn := by
  cases primed : world.ledger.acct.primed with
  | false =>
      have silent := (sound.silent primed).2 conn
      exact ⟨silent.1, silent.2, (reads.based primed).2 conn unlisted⟩
  | true =>
      by_cases shared : key conn ∈ text.map fun line => key line.conn
      · exact reads.later primed conn member unlisted (.inr shared)
      rcases List.mem_append.mp member with live | dead
      · exact reads.later primed conn member unlisted (.inl live)
      · obtain ⟨event, queued, rfl⟩ := List.mem_map.mp dead
        exact (sound.followed primed _ member).unseen_of_no_slot
          fun slot => shared (awaited primed event queued slot)

theorem listed_followed {line : Line Conn} (on : line ∈ text) :
    Followed (world.ledger.pass key text) key line.conn
      (world.baseline line.conn) line.counters := by
  cases primed : world.ledger.acct.primed with
  | true => exact Ledger.pass_followed reads.keys (reads.listed primed) on
  | false =>
      have untold := world.ledger.observeAll_unprimed key text primed
      have silent := (sound.silent primed).2 line.conn
      have base := (reads.based primed).1 line on
      refine .tracked line.counters ?_ ?_ le_rfl ?_
      · rw [Ledger.pass_counted, if_pos (List.mem_map.mpr ⟨line, on, rfl⟩),
          Ledger.observeAll_slot reads.keys on]
      · show (world.ledger.observeAll key text).credited _ + _ ≤ _
        rw [untold.1, silent.1, base]
        simp [Counted.le_def]
      · show (world.ledger.observeAll key text).hits _ ≤ 1
        rw [untold.2, silent.2]
        exact Nat.zero_le 1

omit reads in
theorem process (captured : world.captured = some text)
    (awaited : world.ledger.acct.primed = true →
      ∀ event ∈ world.events,
        (world.ledger.acct.counted (key event.conn)).isSome = true →
          key event.conn ∈ text.map fun line => key line.conn) :
    Sound key { world with
      ledger := world.ledger.pass key text
      captured := none } := by
  have reads := sound.captured text captured
  have untouched : ∀ conn, ¬ Listed text conn →
      (world.ledger.pass key text).credited conn =
          world.ledger.credited conn ∧
        (world.ledger.pass key text).hits conn = world.ledger.hits conn :=
    fun conn unlisted => world.ledger.observeAll_other_conn key
      fun line on same => unlisted ⟨line, on, same⟩
  refine ⟨sound.keys, sound.opened, ?_, sound.final, ?_, ?_, ?_, ?_⟩
  · intro conn fresh
    have unseen := sound.unopened conn fresh
    have kept := untouched conn fun listed => by
      obtain ⟨line, on, rfl⟩ := listed
      exact fresh (reads.opened line on)
    exact ⟨kept.1.trans unseen.1, kept.2.trans unseen.2.1, unseen.2.2⟩
  · intro conn
    by_cases listed : Listed text conn
    · obtain ⟨line, on, rfl⟩ := listed
      exact .of_followed key
        ((sound.listed_followed reads on).mono (reads.stale line on))
    · have before := sound.countedOnce conn
      have kept := untouched conn listed
      exact ⟨kept.1 ▸ before.bytes, kept.2 ▸ before.hits⟩
  · intro unprimed
    simp at unprimed
  · intro _ conn member
    by_cases listed : Listed text conn
    · obtain ⟨line, on, rfl⟩ := listed
      exact (sound.listed_followed reads on).mono (reads.stale line on)
    · have unseen := sound.unseen_of_unlisted reads awaited member listed
      have kept := untouched conn listed
      exact .unseen (kept.1.trans unseen.1) (kept.2.trans unseen.2.1)
        unseen.2.2
  · simp

end Process

section Handle

variable {event : Line Conn} {rest : List (Line Conn)}
  (sound : Sound key world) (events : world.events = event :: rest)

include events in
omit [DecidableEq Conn] [DecidableEq Key] in
theorem outstanding_handle :
    world.outstanding.Perm
      (event.conn :: (world.table ++ rest.map Line.conn)) := by
  rw [World.outstanding, events]
  exact List.perm_middle

include events in
omit [DecidableEq Conn] [DecidableEq Key] in
theorem event_outstanding : event.conn ∈ world.outstanding :=
  (outstanding_handle events).mem_iff.mpr List.mem_cons_self

include sound events

omit [DecidableEq Conn] [DecidableEq Key] in
theorem keys_handle :
    key event.conn ∉ (world.table ++ rest.map Line.conn).map key ∧
      ((world.table ++ rest.map Line.conn).map key).Nodup := by
  have keys := ((outstanding_handle events).map key).nodup_iff.mp sound.keys
  rwa [List.map_cons, List.nodup_cons] at keys

omit [DecidableEq Conn] [DecidableEq Key] in
/-- What is still outstanding afterwards was so before, under another key. -/
theorem apart_handle {conn : Conn}
    (member : conn ∈ world.table ++ rest.map Line.conn) :
    conn ∈ world.outstanding ∧ key conn ≠ key event.conn := by
  refine ⟨(outstanding_handle events).mem_iff.mpr
    (List.mem_cons_of_mem _ member), fun same => ?_⟩
  exact (keys_handle sound events).1 (List.mem_map.mpr ⟨conn, member, same⟩)

theorem countedOnce_handle (conn : Conn) :
    CountedOnce { world with
      ledger := world.ledger.observe key event true
      events := rest } conn := by
  have before := sound.countedOnce conn
  cases primed : world.ledger.acct.primed with
  | false =>
      have kept := world.ledger.observe_unprimed key event true primed
      exact ⟨kept.1 ▸ before.bytes, kept.2 ▸ before.hits⟩
  | true =>
      by_cases same : conn = event.conn
      · subst same
        have final : event.counters = world.counters event.conn :=
          sound.final event (events ▸ List.mem_cons_self)
        have followed := sound.followed primed _ (event_outstanding events)
        rw [← final] at followed
        have within := Ledger.observe_followed true followed
        exact ⟨within.1.trans final.le, within.2⟩
      · have kept := world.ledger.observe_other_conn key true same
        exact ⟨kept.1 ▸ before.bytes, kept.2 ▸ before.hits⟩

theorem followed_handle (primed : world.ledger.acct.primed = true)
    {conn : Conn} (member : conn ∈ world.table ++ rest.map Line.conn) :
    World.followed { world with
      ledger := world.ledger.observe key event true
      events := rest } key conn (world.counters conn) := by
  obtain ⟨before, apart⟩ := apart_handle sound events member
  have kept := world.ledger.observe_other_conn key true
    fun same : conn = event.conn => apart (congrArg key same)
  exact (sound.followed primed conn before).congr
    (Ledger.observe_other_key true apart) kept.1 kept.2

/-- A text in flight survives a destroyed connection it does not list. -/
theorem captured_handle {text : List (Line Conn)}
    (reads : Captured key world text)
    (settled : world.ledger.acct.primed = true →
      key event.conn ∉ text.map fun line => key line.conn) :
    Captured key { world with
      ledger := world.ledger.observe key event true
      events := rest } text := by
  refine ⟨reads.keys, reads.opened, reads.stale, ?_, ?_, ?_⟩
  · rw [Ledger.observe_primed]
    exact reads.based
  · intro primed line on
    rw [Ledger.observe_primed] at primed
    have apart : key line.conn ≠ key event.conn := fun same =>
      settled primed (List.mem_map.mpr ⟨line, on, same⟩)
    have kept := world.ledger.observe_other_conn key true
      fun same : line.conn = event.conn => apart (congrArg key same)
    exact (reads.listed primed line on).congr
      (Ledger.observe_other_key true apart) kept.1 kept.2
  · intro primed conn member unlisted shares
    rw [Ledger.observe_primed] at primed
    obtain ⟨before, apart⟩ := apart_handle sound events member
    have unseen := reads.later primed conn before unlisted shares
    have kept := world.ledger.observe_other_conn key true
      fun same : conn = event.conn => apart (congrArg key same)
    exact ⟨kept.1.trans unseen.1, kept.2.trans unseen.2.1, unseen.2.2⟩

theorem handle
    (settled : world.ledger.acct.primed = true →
      ∀ text ∈ world.captured,
        key event.conn ∉ text.map fun line => key line.conn) :
    Sound key { world with
      ledger := world.ledger.observe key event true
      events := rest } := by
  refine ⟨(keys_handle sound events).2, ?_, ?_, ?_,
    countedOnce_handle sound events, ?_, ?_, ?_⟩
  · exact fun conn member =>
      sound.opened conn (apart_handle sound events member).1
  · intro conn fresh
    have unseen := sound.unopened conn fresh
    have other : conn ≠ event.conn := fun same =>
      fresh (same ▸ sound.opened _ (event_outstanding events))
    have kept := world.ledger.observe_other_conn key true other
    exact ⟨kept.1.trans unseen.1, kept.2.trans unseen.2.1, unseen.2.2⟩
  · intro other member
    exact sound.final other (events ▸ List.mem_cons_of_mem _ member)
  · intro unprimed
    rw [Ledger.observe_primed] at unprimed
    have silent := sound.silent unprimed
    have kept := world.ledger.observe_unprimed key event true unprimed
    refine ⟨fun slotKey => ?_, ?_⟩
    · show (world.ledger.acct.observeRaw (event.flow key) true).2.counted _ = _
      rw [Accountant.observeRaw_counted, Function.update_apply]
      split
      · rfl
      · exact silent.1 slotKey
    · rw [kept.1, kept.2]
      exact silent.2
  · intro primed conn member
    rw [Ledger.observe_primed] at primed
    exact followed_handle sound events primed member
  · intro text captured
    exact captured_handle sound events (sound.captured text captured)
      fun primed => settled primed text captured

end Handle

theorem step (sound : Sound key world) {action : Action Conn}
    (kept : SlotsKept key world action)
    (stepped : next key world action = some after) : Sound key after := by
  cases action with
  | opens conn =>
      obtain ⟨fresh, same⟩ := Option.ite_none_left_eq_some.mp stepped
      cases same
      exact sound.opens fresh kept
  | grows conn bytes =>
      obtain ⟨live, same⟩ := Option.ite_none_right_eq_some.mp stepped
      cases same
      exact sound.grows live bytes
  | dies conn =>
      obtain ⟨live, same⟩ := Option.ite_none_right_eq_some.mp stepped
      cases same
      exact sound.dies live
  | loses index =>
      cases stepped
      exact sound.fewer_events (List.eraseIdx_sublist _ _)
  | capture order =>
      obtain ⟨⟨_, lists⟩, same⟩ := Option.ite_none_right_eq_some.mp stepped
      cases same
      exact sound.capture lists
  | process =>
      obtain ⟨text, captured, same⟩ := Option.map_eq_some_iff.mp stepped
      cases same
      exact sound.process captured fun primed => kept primed text captured
  | handle =>
      cases events : world.events with
      | nil => simp [next, events] at stepped
      | cons event rest =>
          simp only [next, events, Option.some.injEq] at stepped
          cases stepped
          refine sound.handle events fun primed text captured => ?_
          exact kept primed text captured event (by simp [events])

end Steps

end Sound

theorem countedOnce_of_slotsKept [DecidableEq Conn] [DecidableEq Key]
    (reached : (system key).ReachableUnder (SlotsKept key) world)
    (conn : Conn) : CountedOnce world conn := by
  have sound : Sound key world := by
    apply reached.invariant
    · exact fun _ starts => .start starts
    · exact fun _ _ _ sound kept stepped => sound.step kept stepped
  exact sound.countedOnce conn

end Runs

/-! ## Two orders of the same steps -/

section Traces

def idle : World Nat Nat where
  ledger := ⟨.new, fun _ => 0, fun _ => 0⟩
  table := []
  opened := []
  counters := fun _ => 0
  events := []
  captured := none
  baseline := fun _ => 0

theorem starts_idle : Starts idle where
  acct := rfl
  credited := fun _ => rfl
  hits := fun _ => rfl
  baseline := fun _ => rfl
  table := rfl
  events := rfl
  captured := rfl

instance (world : World Nat Nat) (action : Action Nat) :
    Decidable (SlotsKept id world action) := by
  unfold SlotsKept
  split <;> infer_instance

/-- One connection is open at the start, one begins between two snapshots, and
both end. -/
def orderlyTrace : List (Action Nat) :=
  [.opens 0, .grows 0 ⟨5, 7⟩, .capture [0], .process, .opens 1,
    .grows 1 ⟨3, 4⟩, .grows 0 ⟨10, 0⟩, .capture [0, 1], .grows 1 ⟨1, 1⟩,
    .process, .dies 1, .handle, .dies 0, .handle]

theorem orderlyTrace_countedOnce :
    ∃ world, (system id).run idle orderlyTrace = some world ∧
      world.ledger.credited 0 = ⟨10, 0⟩ ∧ world.ledger.hits 1 = 1 ∧
      CountedOnce world 0 ∧ CountedOnce world 1 := by
  have reached : ∀ world, (system id).run idle orderlyTrace = some world →
      (system id).ReachableUnder (SlotsKept id) world := fun _ replay =>
    TransitionSystem.ReachableUnder.run (.initial starts_idle) orderlyTrace
      (by decide +kernel) replay
  exact ⟨_, rfl, rfl, rfl, countedOnce_of_slotsKept (reached _ rfl) 0,
    countedOnce_of_slotsKept (reached _ rfl) 1⟩

/-- The DESTROY event of a listed connection is handled before the text that
lists it. -/
def staleTrace : List (Action Nat) :=
  [.capture [], .process, .opens 0, .grows 0 ⟨10, 20⟩, .capture [0], .dies 0,
    .handle, .process]

/-- The stale line finds no slot and credits the whole connection again. -/
theorem stale_text_counts_twice :
    ∃ world, (system id).Reachable world ∧
      (world.counters 0).total <
        (world.ledger.credited 0).total + (world.baseline 0).total ∧
      world.ledger.hits 0 = 2 :=
  ⟨_, TransitionSystem.reachable_of_run starts_idle staleTrace rfl,
    by decide +kernel, rfl⟩

end Traces

end QuartzFire.Devices
