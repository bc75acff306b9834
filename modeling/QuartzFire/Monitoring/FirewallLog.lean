import Mathlib.Data.List.Induction
import QuartzFire.Foundation.TransitionSystem
import QuartzFire.Monitoring.LogEntry

/-!
# Pages of the firewall log

A caller polls the kernel journal and passes back the cursor it was given.  The
first poll tails a bounded window of the journal, a poll with a cursor reads on
from it.  What is a firewall entry is up to the parser of messages.
-/

namespace QuartzFire.Monitoring

open TransitionSystem

/-! ## The journal -/

/-- A line of `journalctl -o json`: its fields where they are texts. -/
structure JournalLine where
  message : Option (List Char)
  /-- Microseconds since the epoch, where they parse. -/
  realtime : Option Nat
  cursor : Option String
  deriving DecidableEq

/-- Milliseconds since the epoch. -/
def journalTs (line : JournalLine) : Nat :=
  (line.realtime.map (· / 1000)).getD 0

/-- `-n count` -/
def newest (count : Nat) (journal : List JournalLine) : List JournalLine :=
  journal.drop (journal.length - count)

/-- `--after-cursor=cursor` -/
def afterCursor (cursor : String) (journal : List JournalLine) :
    List JournalLine :=
  (journal.dropWhile fun line => line.cursor ≠ some cursor).drop 1

section Polling

variable {Entry : Type} (parse : List Char → Nat → Option Entry)

/-- An entry with its cursor. -/
def parseFirewallLineWithCursor (line : JournalLine) :
    Option (Entry × String) := do
  let message ← line.message
  let entry ← parse message (journalTs line)
  let cursor ← line.cursor
  return (entry, cursor)

/-- The firewall entries among some lines. -/
def firewallEntries (lines : List JournalLine) : List (Entry × String) :=
  lines.filterMap (parseFirewallLineWithCursor parse)

/-- The loop of a poll with a cursor: stop once the page is full. -/
def readForward (limit : Nat) : List JournalLine → List (Entry × String)
  | [] => []
  | line :: lines =>
      if limit = 0 then []
      else
        match parseFirewallLineWithCursor parse line with
        | some pair => pair :: readForward (limit - 1) lines
        | none => readForward limit lines

/-- The loop of the first poll: a buffer that drops its oldest entry when it is
full. -/
def readTrailing (limit : Nat) (lines : List JournalLine) :
    List (Entry × String) :=
  lines.foldl (fun buf line =>
    match parseFirewallLineWithCursor parse line with
    | some pair =>
        (if buf.length = limit then buf.drop 1 else buf) ++ [pair]
    | none => buf) []

/-- Between one and a thousand entries. -/
def pageLimit (limit : Option Nat) : Nat := max 1 (min (limit.getD 200) 1000)

/-- How far back the first poll scans. -/
def fetchCount (limit : Nat) : Nat := max limit (min (limit * 4) 4000)

/-- `firewall_log_recent` on a journal of whose lines `delivered` arrive: the
entries and the cursor of the page. -/
def firewallLogRecent (journal : List JournalLine) (delivered : Nat)
    (since : Option String) (limit : Option Nat) :
    List (Entry × String) × Option String :=
  let limit := pageLimit limit
  let after := since.filter (· ≠ "")
  let entries := match after with
    | some cursor =>
        readForward parse limit
          ((afterCursor cursor journal).take delivered)
    | none =>
        readTrailing parse limit
          ((newest (fetchCount limit) journal).take delivered)
  (entries, (entries.getLast?.map Prod.snd).or after)

/-! ## Polling -/

structure PollState (Entry : Type) where
  journal : List JournalLine
  /-- The cursor of the last page. -/
  since : Option String
  /-- How long the journal was at the first poll. -/
  started : Option Nat
  /-- What all pages returned, one after another. -/
  returned : List (Entry × String)

inductive PollAction where
  | append (line : JournalLine)
  | poll (limit : Option Nat) (delivered : Nat)

/-- The journal gives each line a cursor of its own. -/
def Journals (journal : List JournalLine) (line : JournalLine) : Prop :=
  ∃ cursor, line.cursor = some cursor ∧ cursor ≠ "" ∧
    ∀ other ∈ journal, other.cursor ≠ some cursor

instance (journal : List JournalLine) (line : JournalLine) :
    Decidable (Journals journal line) :=
  inferInstanceAs (Decidable (∃ cursor, cursor ∈ line.cursor ∧
    cursor ≠ "" ∧ ∀ other ∈ journal, other.cursor ≠ some cursor))

def firewallLog : TransitionSystem (PollState Entry) PollAction where
  Initial state := state.journal = [] ∧ state.since = none ∧
    state.started = none ∧ state.returned = []
  next state
    | .append line =>
        if Journals state.journal line then
          some { state with journal := state.journal ++ [line] }
        else none
    | .poll limit delivered =>
        let (entries, cursor) := firewallLogRecent parse state.journal
          delivered state.since limit
        some { state with
          since := cursor
          started := state.started.or (some state.journal.length)
          returned := state.returned ++ entries }

/-! ## Pages -/

/-- The pages so far are a contiguous run of the firewall entries, and what comes
before the run is older than the first poll. -/
def Complete (state : PollState Entry) : Prop :=
  ∃ before after, firewallEntries parse state.journal =
      before ++ state.returned ++ after ∧
    ∀ start ∈ state.started, before.length ≤
      (firewallEntries parse (state.journal.take start)).length

/-- A poll without a cursor is the first one, meets no firewall entry in its
window, or has all entries since the first poll in its window and room for them
on its page. -/
def Anchored (state : PollState Entry) : PollAction → Prop
  | .append _ => True
  | .poll limit delivered => state.since = none → ∀ start ∈ state.started,
      let limit := pageLimit limit
      let missed := state.journal.length - fetchCount limit
      let reached := state.journal.take (missed + delivered)
      firewallEntries parse (reached.drop missed) = [] ∨
        firewallEntries parse ((reached.take missed).drop start) = [] ∧
          (firewallEntries parse (reached.drop start)).length ≤ limit

instance [DecidableEq Entry] (state : PollState Entry) :
    (action : PollAction) → Decidable (Anchored parse state action)
  | .append _ => .isTrue trivial
  | .poll _ _ => inferInstanceAs (Decidable (_ → ∀ start ∈ _, _ ∨ _ ∧ _))

/-! ### Reading -/

theorem firewallEntries_append (first second : List JournalLine) :
    firewallEntries parse (first ++ second) =
      firewallEntries parse first ++
        firewallEntries parse second :=
  List.filterMap_append

theorem length_firewallEntries (lines : List JournalLine) (count : Nat) :
    (firewallEntries parse lines).length =
      (firewallEntries parse (lines.take count)).length +
        (firewallEntries parse (lines.drop count)).length := by
  rw [← List.length_append, ← firewallEntries_append, List.take_append_drop]

/-- Lines cut off at the end take no entry from those before `start`. -/
theorem length_firewallEntries_take (lines : List JournalLine)
    (count start : Nat) :
    (firewallEntries parse ((lines.take count).take start)).length ≤
      (firewallEntries parse (lines.take start)).length := by
  rw [List.take_take, Nat.min_comm, ← List.take_take,
    length_firewallEntries parse (lines.take start) count]
  exact Nat.le_add_right _ _

theorem readForward_eq (limit : Nat) (lines : List JournalLine) :
    readForward parse limit lines =
      (firewallEntries parse lines).take limit := by
  induction lines generalizing limit with
  | nil => simp [readForward, firewallEntries]
  | cons line lines ih =>
      rw [readForward]
      split
      · rename_i full
        simp [full]
      · rename_i room
        obtain ⟨rest, rfl⟩ := Nat.exists_eq_succ_of_ne_zero room
        cases parsed : parseFirewallLineWithCursor parse line with
        | none =>
            simp only [ih, firewallEntries, List.filterMap_cons, parsed]
        | some pair =>
            simp only [ih, firewallEntries, List.filterMap_cons, parsed,
              Nat.succ_sub_one, List.take_succ_cons]

theorem readTrailing_eq {limit : Nat} (room : 0 < limit)
    (lines : List JournalLine) :
    readTrailing parse limit lines =
      (firewallEntries parse lines).drop
        ((firewallEntries parse lines).length - limit) := by
  induction lines using List.reverseRecOn with
  | nil => simp [readTrailing, firewallEntries]
  | append_singleton lines line ih =>
      rw [readTrailing] at ih ⊢
      rw [List.foldl_append, List.foldl_cons, List.foldl_nil, ih,
        firewallEntries_append]
      generalize firewallEntries parse lines = entries
      cases parsed : parseFirewallLineWithCursor parse line with
      | none => simp [firewallEntries, parsed]
      | some pair =>
          have one : firewallEntries parse [line] = [pair] := by
            simp [firewallEntries, parsed]
          simp only [one, List.length_append, List.length_drop,
            List.length_singleton]
          split
          · rw [List.drop_drop, List.drop_append_of_le_length (by omega)]
            congr 2
            omega
          · rw [List.drop_append_of_le_length (by omega)]
            congr 2
            omega

/-- The line an entry of the journal comes from. -/
theorem exists_line {lines : List JournalLine}
    {front back : List (Entry × String)} {pair : Entry × String}
    (found : firewallEntries parse lines = front ++ pair :: back) :
    ∃ pre line post, lines = pre ++ line :: post ∧
      line.cursor = some pair.2 ∧
      firewallEntries parse post = back := by
  obtain ⟨first, second, rfl, _, rest⟩ :=
    List.filterMap_eq_append_iff.mp found
  obtain ⟨skipped, line, post, rfl, _, parsed, same⟩ :=
    List.filterMap_eq_cons_iff.mp rest
  refine ⟨first ++ skipped, line, post, by simp, ?_, same⟩
  simp only [parseFirewallLineWithCursor, Option.bind_eq_bind,
    Option.bind_eq_some_iff] at parsed
  obtain ⟨_, _, _, _, cursor, held, made⟩ := parsed
  cases made
  exact held

theorem afterCursor_eq {cursor : String} {pre post : List JournalLine}
    {line : JournalLine} (held : line.cursor = some cursor)
    (others : ∀ other ∈ pre, other.cursor ≠ some cursor) :
    afterCursor cursor (pre ++ line :: post) = post := by
  rw [afterCursor, List.dropWhile_append_of_pos (by simpa using others),
    List.dropWhile_cons_of_neg (by simpa using held)]
  rfl

theorem firewallLogRecent_after {cursor : String} (filled : cursor ≠ "")
    (journal : List JournalLine) (delivered : Nat) (limit : Option Nat) :
    firewallLogRecent parse journal delivered (some cursor) limit =
      let entries := (firewallEntries parse
        ((afterCursor cursor journal).take delivered)).take (pageLimit limit)
      (entries, (entries.getLast?.map Prod.snd).or (some cursor)) := by
  have sent : Option.filter (· ≠ "") (some cursor) = some cursor := by
    simpa using filled
  simp only [firewallLogRecent, sent, readForward_eq]

theorem firewallLogRecent_first (journal : List JournalLine)
    (delivered : Nat) (limit : Option Nat) :
    firewallLogRecent parse journal delivered none limit =
      let found := firewallEntries parse
        ((newest (fetchCount (pageLimit limit)) journal).take delivered)
      let entries := found.drop (found.length - pageLimit limit)
      (entries, (entries.getLast?.map Prod.snd).or none) := by
  have room : 0 < pageLimit limit := Nat.le_max_left _ _
  simp only [firewallLogRecent, Option.filter_none, readTrailing_eq _ room]

theorem firewallLog_poll (state : PollState Entry) (limit : Option Nat)
    (delivered : Nat) :
    (firewallLog parse).next state (.poll limit delivered) =
      let page := firewallLogRecent parse state.journal delivered
        state.since limit
      some { state with
        since := page.2
        started := state.started.or (some state.journal.length)
        returned := state.returned ++ page.1 } :=
  rfl

/-! ### One step -/

/-- What holds of the pages of an anchored run. -/
structure Paged (state : PollState Entry) : Prop where
  distinct : state.journal.Pairwise fun earlier later =>
    earlier.cursor ≠ later.cursor
  proper : ∀ line ∈ state.journal, line.cursor ≠ some ""
  since : state.since = state.returned.getLast?.map Prod.snd
  begun : state.started = none → state.returned = []
  started : ∀ start ∈ state.started, start ≤ state.journal.length
  complete : Complete parse state

variable {parse} {state : PollState Entry}

namespace Paged

theorem append (paged : Paged parse state) {line : JournalLine}
    (journals : Journals state.journal line) :
    Paged parse { state with journal := state.journal ++ [line] } where
  distinct := by
    obtain ⟨cursor, held, _, fresh⟩ := journals
    refine List.pairwise_append.mpr
      ⟨paged.distinct, List.pairwise_singleton _ _, ?_⟩
    intro earlier member later last
    rw [List.mem_singleton.mp last, held]
    exact fresh earlier member
  proper := by
    obtain ⟨cursor, held, filled, _⟩ := journals
    intro other member
    rcases List.mem_append.mp member with before | last
    · exact paged.proper other before
    · rw [List.mem_singleton.mp last, held]
      simpa using filled
  since := paged.since
  begun := paged.begun
  started start member := by
    have bound := paged.started start member
    rw [List.length_append]
    omega
  complete := by
    obtain ⟨before, after, split, older⟩ := paged.complete
    refine ⟨before, after ++ firewallEntries parse [line], ?_, ?_⟩
    · rw [firewallEntries_append, split, List.append_assoc]
    · intro start member
      rw [List.take_append_of_le_length (paged.started start member)]
      exact older start member

/-- A page that goes on where the pages before ended. -/
theorem page (paged : Paged parse state)
    {entries : List (Entry × String)} (before after : List (Entry × String))
    (split : firewallEntries parse state.journal =
      before ++ (state.returned ++ entries) ++ after)
    (older : ∀ start ∈ state.started, before.length ≤
      (firewallEntries parse (state.journal.take start)).length) :
    Paged parse { state with
      since := (entries.getLast?.map Prod.snd).or state.since
      started := state.started.or (some state.journal.length)
      returned := state.returned ++ entries } where
  distinct := paged.distinct
  proper := paged.proper
  since := by
    rw [paged.since, List.getLast?_append]
    cases entries.getLast? <;> rfl
  begun unstarted := by
    cases held : state.started <;> simp [held] at unstarted
  started start member := by
    cases held : state.started with
    | none =>
        rw [held] at member
        cases member
        exact Nat.le_refl _
    | some first =>
        rw [held] at member
        exact paged.started start (held ▸ member)
  complete := by
    refine ⟨before, after, split, fun start member => ?_⟩
    cases held : state.started with
    | none =>
        rw [held] at member
        cases member
        have whole := congrArg List.length split
        rw [List.take_length]
        simp only [List.length_append] at whole
        omega
    | some first =>
        rw [held] at member
        exact older start (held ▸ member)

/-- Behind the cursor of the last page are the entries not yet returned. -/
theorem unread (paged : Paged parse state) {cursor : String}
    (given : state.since = some cursor) {before rest : List (Entry × String)}
    (split : firewallEntries parse state.journal =
      before ++ state.returned ++ rest) :
    cursor ≠ "" ∧
      firewallEntries parse (afterCursor cursor state.journal) =
        rest := by
  have since := paged.since
  rw [given] at since
  obtain ⟨pair, last, rfl⟩ := Option.map_eq_some_iff.mp since.symm
  obtain ⟨init, ended⟩ := List.getLast?_eq_some_iff.mp last
  have located : firewallEntries parse state.journal =
      (before ++ init) ++ pair :: rest := by
    rw [split, ended]
    simp
  obtain ⟨pre, line, post, lines, held, next⟩ := exists_line _ located
  have others : ∀ other ∈ pre, other.cursor ≠ some pair.2 := by
    have distinct := paged.distinct
    rw [lines, List.pairwise_append] at distinct
    intro other member
    rw [← held]
    exact distinct.2.2 other member line List.mem_cons_self
  constructor
  · intro blank
    refine paged.proper line ?_ (blank ▸ held)
    rw [lines]
    exact List.mem_append_right _ List.mem_cons_self
  · rw [lines, afterCursor_eq held others, next]

/-- A poll with a cursor returns what comes next. -/
theorem pollForward (paged : Paged parse state) {cursor : String}
    (given : state.since = some cursor) {limit : Option Nat}
    {delivered : Nat} {after : PollState Entry}
    (stepped : (firewallLog parse).next state
      (.poll limit delivered) = some after) :
    Paged parse after := by
  obtain ⟨before, rest, split, older⟩ := paged.complete
  obtain ⟨filled, unread⟩ := paged.unread given split
  rw [firewallLog_poll, given, firewallLogRecent_after _ filled,
    ← given] at stepped
  cases stepped
  generalize pageLimit limit = limit
  generalize afterCursor cursor state.journal = lines at unread ⊢
  refine paged.page before
    ((firewallEntries parse (lines.take delivered)).drop limit
      ++ firewallEntries parse (lines.drop delivered)) ?_ older
  rw [split, ← unread]
  nth_rewrite 1 [← List.take_append_drop delivered lines]
  nth_rewrite 1 [firewallEntries_append,
    ← List.take_append_drop limit (firewallEntries parse
      (lines.take delivered))]
  simp only [List.append_assoc]

/-- An anchored poll without a cursor leaves out only what is older than the
first poll. -/
theorem pollFirst (paged : Paged parse state)
    (given : state.since = none) {limit : Option Nat} {delivered : Nat}
    (anchored : Anchored parse state (.poll limit delivered))
    {after : PollState Entry}
    (stepped : (firewallLog parse).next state
      (.poll limit delivered) = some after) :
    Paged parse after := by
  have none_returned : state.returned = [] := by
    have since := paged.since
    rw [given] at since
    exact List.getLast?_eq_none_iff.mp (Option.map_eq_none_iff.mp since.symm)
  rw [firewallLog_poll, given, firewallLogRecent_first, ← given] at stepped
  cases stepped
  replace anchored := anchored given
  simp only at anchored ⊢
  generalize pageLimit limit = limit at anchored ⊢
  have window : (newest (fetchCount limit) state.journal).take delivered =
      (state.journal.take (state.journal.length - fetchCount limit +
        delivered)).drop (state.journal.length - fetchCount limit) := by
    rw [newest, List.drop_take, Nat.add_sub_cancel_left]
  rw [window]
  generalize state.journal.length - fetchCount limit = missed at anchored ⊢
  generalize cut : state.journal.take (missed + delivered) = reached
    at anchored ⊢
  have whole : firewallEntries parse state.journal =
      firewallEntries parse (reached.take missed) ++
        firewallEntries parse (reached.drop missed) ++
          firewallEntries parse
            (state.journal.drop (missed + delivered)) := by
    rw [← firewallEntries_append, ← firewallEntries_append,
      List.take_append_drop, ← cut, List.take_append_drop]
  have bound : ∀ start ∈ state.started,
      firewallEntries parse (reached.drop missed) = [] ∨
        (firewallEntries parse (reached.take missed)).length +
          ((firewallEntries parse (reached.drop missed)).length -
            limit) ≤
          (firewallEntries parse (state.journal.take start)).length := by
    intro start member
    refine (anchored start member).imp_right fun ⟨none_missed, fits⟩ => ?_
    have upTo := length_firewallEntries parse
    have shorter := length_firewallEntries_take parse
    have split := upTo (reached.take missed) start
    rw [none_missed, List.length_nil] at split
    have inMissed := shorter reached missed start
    have atMissed := upTo reached missed
    have atStart := upTo reached start
    have inReached := shorter state.journal (missed + delivered) start
    rw [cut] at inReached
    omega
  by_cases met : firewallEntries parse (reached.drop missed) = []
  · rw [met]
    refine paged.page [] (firewallEntries parse state.journal) ?_ ?_
    · simp [none_returned]
    · simp
  · refine paged.page
      (firewallEntries parse (reached.take missed) ++
        (firewallEntries parse (reached.drop missed)).take
          ((firewallEntries parse (reached.drop missed)).length -
            limit))
      (firewallEntries parse
        (state.journal.drop (missed + delivered))) ?_ ?_
    · rw [whole, none_returned, List.nil_append,
        List.append_assoc (firewallEntries parse (reached.take missed))
          (List.take _ _), List.take_append_drop]
    · intro start member
      have older := (bound start member).resolve_left met
      rw [List.length_append, List.length_take]
      omega

theorem next (paged : Paged parse state) {action : PollAction}
    {after : PollState Entry} (anchored : Anchored parse state action)
    (stepped : (firewallLog parse).next state action = some after) :
    Paged parse after := by
  cases action with
  | append line =>
      simp only [firewallLog] at stepped
      split_ifs at stepped with journals
      cases stepped
      exact paged.append journals
  | poll limit delivered =>
      cases given : state.since with
      | none => exact paged.pollFirst given anchored stepped
      | some cursor => exact paged.pollForward given stepped

end Paged

theorem paged_of_initial (initial : (firewallLog parse).Initial state) :
    Paged parse state := by
  obtain ⟨journal, since, started, returned⟩ := initial
  constructor
  · simp [journal]
  · simp [journal]
  · simp [since, returned]
  · exact fun _ => returned
  · simp [started]
  · exact ⟨[], [], by simp [journal, returned, firewallEntries], by simp⟩

end Polling

/-- The pages of an anchored run skip and repeat nothing. -/
theorem complete_of_anchored {state : PollState LogEntry}
    (reached : (firewallLog parseMessage).ReachableUnder
      (Anchored parseMessage) state) :
    Complete parseMessage state := by
  have paged : Paged parseMessage state := by
    refine reached.invariant (fun _ => paged_of_initial) ?_
    intro state action after paged anchored stepped
    exact paged.next anchored stepped
  exact paged.complete

/-! ## A poll of a window without firewall lines -/

def quietLog : PollState LogEntry := ⟨[], none, none, []⟩

def loggedLine (cursor : String) : JournalLine where
  message := some
    "[ipv4-FWD-filter-10-A]IN=eth1 OUT=eth0 SRC=10.0.0.5 DST=1.1.1.1".toList
  realtime := some 1700000000000000
  cursor := some cursor

def otherLine (cursor : String) : JournalLine where
  message := some "usb 1-1: new high-speed USB device".toList
  realtime := some 1700000000000000
  cursor := some cursor

/-- Two entries before the first poll and two more between the polls. -/
def anchoredPolls : List PollAction :=
  [.append (loggedLine "s=1"), .append (otherLine "s=2"),
    .append (loggedLine "s=3"), .poll (some 1) 9, .append (loggedLine "s=4"),
    .append (loggedLine "s=5"), .poll (some 1) 9, .poll none 9]

def anchoredLog : Option (PollState LogEntry) :=
  (firewallLog parseMessage).run quietLog anchoredPolls

theorem anchoredLog_taken : anchoredLog.isSome = true := by decide +kernel

theorem initial_quietLog : (firewallLog parseMessage).Initial quietLog :=
  ⟨rfl, rfl, rfl, rfl⟩

theorem anchoredLog_complete :
    Complete parseMessage (anchoredLog.get anchoredLog_taken) :=
  complete_of_anchored <|
    .run (.initial initial_quietLog) anchoredPolls (by decide +kernel)
      (Option.some_get _).symm

/-- The first poll meets a line that is none of the firewall's and gets no
cursor, so that the second is a first one again. -/
def unanchoredPolls : List PollAction :=
  [.append (otherLine "s=1"), .poll (some 1) 9, .append (loggedLine "s=2"),
    .append (loggedLine "s=3"), .poll (some 1) 9]

def unanchoredLog : Option (PollState LogEntry) :=
  (firewallLog parseMessage).run quietLog unanchoredPolls

theorem unanchoredLog_taken : unanchoredLog.isSome = true := by
  decide +kernel

theorem entry_skipped_between_polls :
    ∃ state, (firewallLog parseMessage).Reachable state ∧
      ¬ Complete parseMessage state := by
  refine ⟨unanchoredLog.get unanchoredLog_taken, ?_, ?_⟩
  · exact reachable_of_run initial_quietLog unanchoredPolls
      (Option.some_get _).symm
  · rintro ⟨before, after, split, older⟩
    have none_older : before.length ≤ 0 := older 1 (by decide +kernel)
    rw [List.eq_nil_of_length_eq_zero (Nat.le_zero.mp none_older)] at split
    -- The second line comes first, but the pages begin with the third.
    have journal : (firewallEntries parseMessage
        (unanchoredLog.get unanchoredLog_taken).journal).head?.map
          Prod.snd = some "s=2" := by
      decide +kernel
    have returned : (unanchoredLog.get unanchoredLog_taken).returned.head?.map
        Prod.snd = some "s=3" := by
      decide +kernel
    obtain ⟨page, first, last⟩ := Option.map_eq_some_iff.mp returned
    rw [split, List.nil_append, List.head?_append, first, Option.some_or,
      Option.map_some, last] at journal
    revert journal
    decide

end QuartzFire.Monitoring
