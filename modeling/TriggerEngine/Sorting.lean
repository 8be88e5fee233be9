/-
**Sorting by runs.**

A row is cut into runs: stretches that rise, or fall strictly and are turned round.  A run that is
too short is lengthened by inserting the items behind it, each by halving.  Neighbouring runs are
merged, the deeper ones first, where the depth of the border between two runs is given by the
places of their middles in the whole row.

A merge starts at the front or at the back, whichever lets the shorter run be set aside.  It takes
single items as long as both runs give some; when one of them gives many in a row, it gallops: it
looks, by doubling and then halving, how many items can be taken at once.

A comparison may fail.  Then the sorting stops, and the row has all its items still, as far sorted
as they were; so it is part of the answer which comparisons are made, and in which order.

Main definitions:

* `Sorting.bisect`, `Sorting.gallop` — looking for a place;
* `Sorting.takeRun`, `Sorting.insertAll` — runs;
* `Sorting.Merging` — a merge under way, and `Sorting.merge`;
* `Sorting.power`, `Sorting.settle`, `Sorting.collapse` — which runs are merged when;
* `Sorting.sort` — sorting.
-/

set_option autoImplicit false

namespace TriggerEngine.Sorting

variable {α ε : Type}

/-- A comparison that may fail: whether the first item comes before the second. -/
abbrev Compare (α ε : Type) := α → α → Except ε Bool

/-- Items, and the fault that ended the work on them, if one did. -/
abbrev Outcome (α ε : Type) := Array α × Option ε

/-! ### Looking for a place -/

/-- The first place from `low` to `high` that is not passed, by halving; `passed` holds up to some
place and not from there on. -/
def bisect (passed : Nat → Except ε Bool) : Nat → Nat → Nat → Except ε Nat
  | 0, low, _ => .ok low
  | fuel + 1, low, high => do
    if low < high then
      let middle := low + (high - low) / 2
      if ← passed middle then bisect passed fuel (middle + 1) high
      else bisect passed fuel low middle
    else return low

/-- Goes to greater and greater distances below `most` as long as `goesOn`: the last distance that
was passed, and the first one that was not. -/
def stride (goesOn : Nat → Except ε Bool) (most : Nat) :
    Nat → Nat → Nat → Except ε (Nat × Nat)
  | 0, last, _ => .ok (last, most)
  | fuel + 1, last, next => do
    if next < most then
      if ← goesOn next then stride goesOn most fuel next (2 * next + 1)
      else return (last, next)
    else return (last, most)

/-- The first of `size` places that is not passed, searched for from a place that is likely to be
near. -/
def gallop (passed : Nat → Except ε Bool) (size hint : Nat) : Except ε Nat := do
  if ← passed hint then
    let most := size - hint
    let (last, next) ← stride (fun d => passed (hint + d)) most most 0 1
    bisect passed size (hint + last + 1) (hint + next)
  else
    let most := hint + 1
    let (last, next) ← stride (fun d => return !(← passed (hint - d))) most most 0 1
    bisect passed size (hint + 1 - next) (hint - last)

/-! ### Runs -/

/-- The items that continue a run behind `last`, each compared with the one before it, and the
rest. -/
def takeRun (lt : Compare α ε) (falling : Bool) (last : α) :
    List α → Except ε (List α × List α)
  | [] => .ok ([], [])
  | v :: rest => do
    if (← lt v last) == falling then
      let (run, rest) ← takeRun lt falling v rest
      return (v :: run, rest)
    else return ([], v :: rest)

/-- The run at the start of a row, in rising order, and the rest. -/
def firstRun (lt : Compare α ε) : List α → Except ε (Array α × List α)
  | a :: b :: rest => do
    let falling ← lt b a
    let (run, rest) ← takeRun lt falling b rest
    let run := a :: b :: run
    return ((if falling then run.reverse else run).toArray, rest)
  | row => .ok (row.toArray, [])

/-- An array with an item put in. -/
def insertAt (items : Array α) (i : Nat) (v : α) : Array α :=
  (items.extract 0 i).push v ++ items.extract i items.size

/-- Where an item belongs among sorted ones: behind all that it does not come before. -/
def place (lt : Compare α ε) (v : α) (sorted : Array α) : Except ε Nat :=
  bisect (fun i => do return !(← lt v (sorted.getD i v))) (sorted.size + 1) 0 sorted.size

/-- Inserts items one by one into sorted ones; a comparison that fails leaves the rest as it
is. -/
def insertAll (lt : Compare α ε) (sorted : Array α) : List α → Outcome α ε
  | [] => (sorted, none)
  | v :: rest =>
    match place lt v sorted with
    | .ok i => insertAll lt (insertAt sorted i v) rest
    | .error fault => (sorted ++ (v :: rest).toArray, some fault)

/-- How long a run has to be in a row of `n` items: the leading binary digits of `n`, rounded up,
so that there are few enough runs and nearly a power of two of them. -/
def leastRunF : Nat → Nat → Nat → Nat
  | 0, n, odd => n + odd
  | fuel + 1, n, odd => if n < 64 then n + odd else leastRunF fuel (n / 2) (max odd (n % 2))

/-- How long a run has to be in a row of `n` items. -/
def leastRun (n : Nat) : Nat := leastRunF n n 0

/-! ### Merging -/

/-- The end at which a merge starts. -/
inductive End where
  | front
  | back
  deriving DecidableEq, Repr

/-- What is left of a run: some of its items from a place on. -/
structure Part (α : Type) where
  /-- The items of the run. -/
  items : Array α
  /-- The place of the first item that is left. -/
  first : Nat
  /-- How many are left. -/
  size : Nat

namespace Part

/-- All of a run. -/
def whole (items : Array α) : Part α := ⟨items, 0, items.size⟩

/-- The items that are left. -/
def left (p : Part α) : Array α := p.items.extract p.first (p.first + p.size)

/-- The place of the item that a merge comes to next. -/
def nextAt (p : Part α) : End → Nat
  | .front => 0
  | .back => p.size - 1

/-- One of the items that are left. -/
def get? (p : Part α) (i : Nat) : Option α := p.items[p.first + i]?

/-- The item that a merge comes to next. -/
def next? (p : Part α) (side : End) : Option α := p.get? (p.nextAt side)

/-- How many items a merge passes on its way to a place. -/
def upTo (p : Part α) (side : End) (i : Nat) : Nat :=
  match side with
  | .front => i
  | .back => p.size - i

/-- Takes items away, in the order in which a merge comes to them. -/
def take (p : Part α) (side : End) (k : Nat) : Array α × Part α :=
  match side with
  | .front => (p.items.extract p.first (p.first + k), ⟨p.items, p.first + k, p.size - k⟩)
  | .back =>
    let stop := p.first + p.size
    ((p.items.extract (stop - k) stop).reverse, ⟨p.items, p.first, p.size - k⟩)

end Part

/-- A merge of two neighbouring runs. -/
structure Merging (α : Type) where
  /-- The end at which it started. -/
  side : End
  /-- What is left of the left run. -/
  left : Part α
  /-- What is left of the right run. -/
  right : Part α
  /-- What has been merged, in the order in which the merge came to it. -/
  done : Array α
  /-- How many items in a row one run has to give before the merge gallops. -/
  patience : Nat

/-- How a merge goes on. -/
inductive Pace where
  /-- One item at a time; so many in a row came from the left run or from the right one. -/
  | single (lefts rights : Nat)
  /-- Galloping in the left run. -/
  | left
  /-- Galloping in the right run, after so many items from the left one. -/
  | right (lefts : Nat)
  deriving DecidableEq, Repr

/-- Whether there is anything left to decide in a merge. -/
inductive Status where
  /-- There is. -/
  | going
  /-- One of the runs is used up. -/
  | spent
  /-- The run that was set aside has one item left, which goes to the far end. -/
  | lone
  deriving DecidableEq, Repr

/-- How many items have to come in a row from one run to make galloping worth while. -/
def worthwhile : Nat := 7

namespace Merging

/-- What a merge has come to, with both remainders where they belong. -/
def joined (m : Merging α) : Array α :=
  match m.side with
  | .front => m.done ++ m.left.left ++ m.right.left
  | .back => m.left.left ++ m.right.left ++ m.done.reverse

/-- What a merge has come to, with the remainders exchanged. -/
def crossed (m : Merging α) : Array α :=
  match m.side with
  | .front => m.done ++ m.right.left ++ m.left.left
  | .back => m.right.left ++ m.left.left ++ m.done.reverse

/-- Whether there is anything left to decide. -/
def status (m : Merging α) : Status :=
  if m.left.size == 0 || m.right.size == 0 then .spent
  else
    match m.side with
    | .front => if m.left.size == 1 then .lone else .going
    | .back => if m.right.size == 1 then .lone else .going

/-- Takes items from the left run. -/
def takeLeft (m : Merging α) (k : Nat) : Merging α :=
  match m.left.take m.side k with
  | (taken, left) => { m with left, done := m.done ++ taken }

/-- Takes items from the right run. -/
def takeRight (m : Merging α) (k : Nat) : Merging α :=
  match m.right.take m.side k with
  | (taken, right) => { m with right, done := m.done ++ taken }

/-- Goes on if there is anything left to decide. -/
def andThen (m : Merging α) (next : Merging α → Merging α) : Merging α :=
  if m.status = .going then next m else m

/-- The pace after `count` items in a row. -/
def paceAfter (m : Merging α) (count : Nat) (single : Pace) : Pace :=
  if m.patience ≤ count then .left else single

/-- Takes one item.  At equal items the one from the left run comes first. -/
def stepSingle (lt : Compare α ε) (m : Merging α) (lefts rights : Nat) :
    Except ε (Merging α × Pace) :=
  match m.left.next? m.side, m.right.next? m.side with
  | some a, some b => do
    let strictly ← lt b a
    if strictly == (m.side == .front) then
      return (m.takeRight 1, m.paceAfter (rights + 1) (.single 0 (rights + 1)))
    else return (m.takeLeft 1, m.paceAfter (lefts + 1) (.single (lefts + 1) 0))
  | _, _ => .ok (m, .single 0 0)

/-- Takes all items of the left run that come before the next one of the right run, and that
one. -/
def stepLeft (lt : Compare α ε) (m : Merging α) : Except ε (Merging α × Pace) :=
  match m.right.next? m.side with
  | some b => do
    let passed i := do return !(← lt b ((m.left.get? i).getD b))
    let k := m.left.upTo m.side (← gallop passed m.left.size (m.left.nextAt m.side))
    return ((m.takeLeft k).andThen (·.takeRight 1), .right k)
  | none => .ok (m, .single 0 0)

/-- How a merge goes on after a round of galloping: it keeps to it as long as that pays, and is
the readier to do so the longer it does. -/
def afterRound (m : Merging α) (lefts rights : Nat) : Merging α × Pace :=
  if m.status ≠ .going then (m, .single 0 0)
  else if worthwhile ≤ lefts || worthwhile ≤ rights then
    ({ m with patience := max (m.patience - 1) 1 }, .left)
  else ({ m with patience := m.patience + 1 }, .single 0 0)

/-- Takes all items of the right run that come before the next one of the left run, and that
one. -/
def stepRight (lt : Compare α ε) (m : Merging α) (lefts : Nat) : Except ε (Merging α × Pace) :=
  match m.left.next? m.side with
  | some a => do
    let passed i := lt ((m.right.get? i).getD a) a
    let k := m.right.upTo m.side (← gallop passed m.right.size (m.right.nextAt m.side))
    return ((m.takeRight k).andThen (·.takeLeft 1)).afterRound lefts k
  | none => .ok (m, .single 0 0)

/-- One step of a merge; it takes at least one item. -/
def step (lt : Compare α ε) (m : Merging α) : Pace → Except ε (Merging α × Pace)
  | .single lefts rights => m.stepSingle lt lefts rights
  | .left => m.stepLeft lt
  | .right lefts => m.stepRight lt lefts

/-- Merges until nothing is left to decide: the items, the patience that is left, and the fault of
a comparison that failed. -/
def finishF (lt : Compare α ε) : Nat → Merging α → Pace → Array α × Nat × Option ε
  | 0, m, _ => (m.joined, m.patience, none)
  | fuel + 1, m, pace =>
    match m.status with
    | .spent => (m.joined, m.patience, none)
    | .lone => (m.crossed, m.patience, none)
    | .going =>
      match m.step lt pace with
      | .error fault => (m.joined, m.patience, some fault)
      | .ok (m, pace) => finishF lt fuel m pace

/-- A merge that has begun: the first item is known to come from the other run. -/
def start (side : End) (left right : Array α) (patience : Nat) : Merging α :=
  let m : Merging α := ⟨side, .whole left, .whole right, #[], patience⟩
  match side with
  | .front => m.takeRight 1
  | .back => m.takeLeft 1

end Merging

/-- Merges two runs whose first items, and whose last items, are out of order. -/
def mergeTight (lt : Compare α ε) (patience : Nat) (left right : Array α) :
    Array α × Nat × Option ε :=
  let side := if left.size ≤ right.size then End.front else .back
  (Merging.start side left right patience).finishF lt (left.size + right.size) (.single 0 0)

/-- Merges two neighbouring runs.  Items at the start of the left one and at the end of the right
one that stand right already are left alone. -/
def merge (lt : Compare α ε) (patience : Nat) (left right : Array α) :
    Array α × Nat × Option ε :=
  match right[0]?, left.back? with
  | some b, some a =>
    match gallop (fun i => do return !(← lt b (left.getD i b))) left.size 0 with
    | .error fault => (left ++ right, patience, some fault)
    | .ok k =>
      if left.size ≤ k then (left ++ right, patience, none)
      else
        match gallop (fun i => lt (right.getD i a) a) right.size (right.size - 1) with
        | .error fault => (left ++ right, patience, some fault)
        | .ok n =>
          if n == 0 then (left ++ right, patience, none)
          else
            match mergeTight lt patience (left.extract k left.size) (right.extract 0 n) with
            | (middle, patience, fault) =>
              (left.extract 0 k ++ middle ++ right.extract n right.size, patience, fault)
  | _, _ => (left ++ right, patience, none)

/-! ### Which runs are merged when -/

/-- A run that waits to be merged. -/
structure Run (α : Type) where
  /-- Where it starts in the whole row. -/
  start : Nat
  /-- Its items. -/
  items : Array α
  /-- The depth of the border to the run behind it. -/
  power : Nat

/-- The number of the first binary digit in which `a / n` and `b / n` differ. -/
def powerF (n : Nat) : Nat → Nat → Nat → Nat
  | 0, _, _ => 0
  | fuel + 1, a, b =>
    if n ≤ a then 1 + powerF n fuel (2 * (a - n)) (2 * (b - n))
    else if n ≤ b then 1
    else 1 + powerF n fuel (2 * a) (2 * b)

/-- The depth of the border between a run of `size` items from `start` on and one of `next` items
behind it, in a row of `n` items. -/
def power (n start size next : Nat) : Nat :=
  let a := 2 * start + size
  powerF n n a (a + size + next)

/-- The work on a row: the runs that wait, the last one first, and the patience of merges. -/
structure Work (α : Type) where
  /-- The runs that wait. -/
  runs : List (Run α)
  /-- How many items in a row one run has to give before a merge gallops. -/
  patience : Nat

/-- The items of runs that wait, in the order of the row. -/
def rowOf (runs : List (Run α)) : Array α :=
  (runs.reverse.map Run.items).foldl (· ++ ·) #[]

/-- Merges two neighbouring runs that wait. -/
def mergeNeighbours (lt : Compare α ε) (patience : Nat) (left right : Run α) :
    Run α × Nat × Option ε :=
  match merge lt patience left.items right.items with
  | (items, patience, fault) => (⟨left.start, items, right.power⟩, patience, fault)

/-- Merges the last runs as long as the border before the last one is deeper than the one behind
it, whose depth is given. -/
def settle (lt : Compare α ε) (depth : Nat) : Run α → List (Run α) → Nat → Work α × Option ε
  | last, [], patience => (⟨[{ last with power := depth }], patience⟩, none)
  | last, before :: rest, patience =>
    if depth < before.power then
      match mergeNeighbours lt patience before last with
      | (merged, patience, some fault) => (⟨merged :: rest, patience⟩, some fault)
      | (merged, patience, none) => settle lt depth merged rest patience
    else (⟨{ last with power := depth } :: before :: rest, patience⟩, none)

/-- Adds a run at the end, in a row of `n` items. -/
def addRun (lt : Compare α ε) (n : Nat) (start : Nat) (items : Array α) (w : Work α) :
    Work α × Option ε :=
  match w.runs with
  | [] => (⟨[⟨start, items, 0⟩], w.patience⟩, none)
  | last :: rest =>
    match settle lt (power n last.start last.items.size items.size) last rest w.patience with
    | (w, fault) => (⟨⟨start, items, 0⟩ :: w.runs, w.patience⟩, fault)

/-- Merges all runs, a short one in the middle with the shorter of its neighbours. -/
def collapse (lt : Compare α ε) : Nat → List (Run α) → Nat → Outcome α ε
  | 0, runs, _ => (rowOf runs, none)
  | fuel + 1, runs, patience =>
    match runs with
    | last :: middle :: first :: rest =>
      if first.items.size < last.items.size then
        match mergeNeighbours lt patience first middle with
        | (merged, _, some fault) => (rowOf (last :: merged :: rest), some fault)
        | (merged, patience, none) => collapse lt fuel (last :: merged :: rest) patience
      else
        match mergeNeighbours lt patience middle last with
        | (merged, _, some fault) => (rowOf (merged :: first :: rest), some fault)
        | (merged, patience, none) => collapse lt fuel (merged :: first :: rest) patience
    | [last, first] =>
      match mergeNeighbours lt patience first last with
      | (merged, _, fault) => (merged.items, fault)
    | runs => (rowOf runs, none)

/-! ### Sorting -/

/-- The next run of a row, lengthened to `least` items, and the rest. -/
def nextRun (lt : Compare α ε) (least : Nat) (row : List α) : Array α × List α × Option ε :=
  match firstRun lt row with
  | .error fault => (#[], row, some fault)
  | .ok (run, rest) =>
    match insertAll lt run (rest.take (least - run.size)) with
    | (items, fault) => (items, rest.drop (least - run.size), fault)

/-- Sorts the rest of a row of `n` items from place `start` on. -/
def sortF (lt : Compare α ε) (n : Nat) : Nat → Nat → List α → Work α → Outcome α ε
  | 0, _, row, w => (rowOf w.runs ++ row.toArray, none)
  | _ + 1, _, [], w => collapse lt w.runs.length w.runs w.patience
  | fuel + 1, start, row, w =>
    match nextRun lt (leastRun n) row with
    | (items, rest, some fault) => (rowOf w.runs ++ items ++ rest.toArray, some fault)
    | (items, rest, none) =>
      match addRun lt n start items w with
      | (w, some fault) => (rowOf w.runs ++ rest.toArray, some fault)
      | (w, none) => sortF lt n fuel (start + items.size) rest w

/-- Sorts items; the fault of a comparison, if one failed, comes with the items as they were
then. -/
def sort (lt : Compare α ε) (items : Array α) : Outcome α ε :=
  sortF lt items.size (items.size + 1) 0 items.toList ⟨[], worthwhile⟩

end TriggerEngine.Sorting
