import ChatRelay.Toml

/-!
# Documents in the making

A document is built from lines that name places in it. A table may be entered in the path of a
header or of a dotted key, and what it may still take depends on how it came to be: a header of its
own is given once, and a dotted key adds to no table that has a header.
-/

namespace ChatRelay.Toml

/-- How a table came to be. -/
inductive Origin where
  /-- By a header of its own. -/
  | header
  /-- As a part of the path of a header. -/
  | above
  /-- As a part of the path of a key. -/
  | dotted
  deriving DecidableEq, Repr

/-- What a key of an unfinished document stands for. -/
inductive Draft where
  | value (value : Toml)
  | table (origin : Origin) (entries : List (String × Draft))
  /-- Tables that have one header in common, in the order of their headers. -/
  | tables (elements : List (List (String × Draft)))
  deriving Repr, Inhabited

namespace Draft

/-- The entries of an unfinished table. -/
abbrev Entries := List (String × Draft)

/-- Gives a key that occurs another meaning. -/
def replace (key : String) (draft : Draft) (entries : Entries) : Entries :=
  entries.map fun entry => if entry.1 = key then (key, draft) else entry

/-- Changes the table at a path, which starts at a table of the given origin. A key of the path that
does not occur yet becomes a table. Of tables with a common header the last one is entered. -/
def enter (dotted : Bool) (change : Origin → Entries → Option Entries) :
    Origin → List String → Entries → Option Entries
  | origin, [], entries => change origin entries
  | _, key :: path, entries =>
    match entries.lookup key with
    | none =>
      let origin : Origin := if dotted then .dotted else .above
      (enter dotted change origin path []).map fun inner => entries ++ [(key, .table origin inner)]
    | some (.value _) => none
    | some (.table origin inner) =>
      if dotted ∧ origin = .header then none
      else (enter dotted change origin path inner).map fun inner =>
        replace key (.table origin inner) entries
    | some (.tables elements) =>
      match elements.getLast? with
      | none => none
      | some last => (enter dotted change .header path last).map fun last =>
        replace key (.tables (elements.dropLast ++ [last])) entries

/-- Adds the value of a key behind a dotted path. The key is new, and the table that it is added to
is the one it starts from or one that dotted keys have made. -/
def addPair (path : List String) (key : String) (value : Toml) : Entries → Option Entries :=
  enter true
    (fun origin entries =>
      if path ≠ [] ∧ origin ≠ .dotted then none
      else if (entries.lookup key).isSome then none
      else some (entries ++ [(key, .value value)]))
    .header path

/-- Adds a pair to the table whose header was the last one. -/
def addPairBelow (header path : List String) (key : String) (value : Toml) :
    Entries → Option Entries :=
  enter false (fun _ entries => addPair path key value entries) .header header

/-- Gives a table its header. -/
def addHeader (path : List String) (key : String) : Entries → Option Entries :=
  enter false
    (fun _ entries =>
      match entries.lookup key with
      | none => some (entries ++ [(key, .table .header [])])
      | some (.table .above inner) => some (replace key (.table .header inner) entries)
      | some _ => none)
    .header path

/-- Adds a table to those with a common header. -/
def addElement (path : List String) (key : String) : Entries → Option Entries :=
  enter false
    (fun _ entries =>
      match entries.lookup key with
      | none => some (entries ++ [(key, .tables [[]])])
      | some (.tables elements) => some (replace key (.tables (elements ++ [[]])) entries)
      | some _ => none)
    .header path

mutual

/-- The value of a finished part. -/
def finish : Draft → Toml
  | .value v => v
  | .table _ entries => .table (finishEntries entries)
  | .tables elements => .array (finishElements elements)

/-- The entries of a finished table. -/
def finishEntries : List (String × Draft) → List (String × Toml)
  | [] => []
  | (key, draft) :: rest => (key, finish draft) :: finishEntries rest

/-- The values of finished tables. -/
def finishElements : List (List (String × Draft)) → List Toml
  | [] => []
  | entries :: rest => .table (finishEntries entries) :: finishElements rest

end

end Draft

end ChatRelay.Toml
