/-!
# TOML values

The value that a TOML text denotes, and the rules by which its statements build it. A table
remembers how it came about, since that decides whether a later statement may add to it: a header
may define a table that earlier headers only implied, dotted keys may add to tables made by dotted
keys, and an inline table is complete.

Of numbers, dates and times only their kind is kept.
-/

namespace FieldGraft

/-- How a table came about. -/
inductive TableForm where
  /-- Written in braces. -/
  | inline
  /-- Named by a header, or the document itself. -/
  | declared
  /-- Lies on the way to a declared table. -/
  | implied
  /-- Lies on the way of a dotted key. -/
  | dotted
deriving DecidableEq, Repr, Inhabited

/-- Whether a path may go on into a table; `keyed` says whether the path is that of a dotted key. -/
def TableForm.isOpen (keyed : Bool) : TableForm → Bool
  | inline => false
  | declared => !keyed
  | implied => true
  | dotted => true

/-- A TOML value. -/
inductive Toml where
  | string (s : String)
  | boolean (b : Bool)
  | number
  | moment
  | array (elements : List Toml)
  /-- The tables of one `[[name]]`, in order. -/
  | tables (elements : List Toml)
  | table (form : TableForm) (entries : List (String × Toml))
deriving Repr, Inhabited

namespace Toml

/-- The entries of a table. -/
abbrev Entries := List (String × Toml)

/-- The document without statements. -/
def empty : Toml :=
  table .declared []

/-- Replaces the value of a key that is there. -/
def replace (key : String) (value : Toml) (entries : Entries) : Entries :=
  entries.map (fun e => if e.1 = key then (key, value) else e)

/-- Changes the table that a path leads to, making the tables on the way. At a list of tables the
path goes on into the last one. -/
def within (dotted : Bool) (change : TableForm → Entries → Option Toml) :
    List String → TableForm → Entries → Option Toml
  | [], form, entries => change form entries
  | key :: path, form, entries =>
    match entries.lookup key with
    | none =>
      match within dotted change path (if dotted then .dotted else .implied) [] with
      | some made => some (table form (entries ++ [(key, made)]))
      | none => none
    | some (.table inner old) =>
      if inner.isOpen dotted then
        match within dotted change path inner old with
        | some made => some (table form (replace key made entries))
        | none => none
      else none
    | some (.tables elements) =>
      match elements.getLast? with
      | some (.table inner old) =>
        match within dotted change path inner old with
        | some made =>
          some (table form (replace key (tables (elements.dropLast ++ [made])) entries))
        | none => none
      | _ => none
    | some _ => none

/-- Adds a value under the last part of a key. The other parts lead to a table that dotted keys have
made; a key without other parts belongs to a table that they have not. -/
def insert (path : List String) (key : String) (value : Toml) (form : TableForm)
    (entries : Entries) : Option Toml :=
  within true (fun form entries =>
    if (form == .dotted) == path.isEmpty then none
    else match entries.lookup key with
      | some _ => none
      | none => some (table form (entries ++ [(key, value)]))) path form entries

/-- Changes the table that the current header names. -/
def inSection (header : List String) (change : TableForm → Entries → Option Toml)
    (document : Toml) : Option Toml :=
  match document with
  | .table form entries => within false change header form entries
  | _ => none

/-- Declares the table with the given last name: it may not be there yet, unless it is implied. -/
def declare (key : String) (form : TableForm) (entries : Entries) : Option Toml :=
  match entries.lookup key with
  | none => some (table form (entries ++ [(key, table .declared [])]))
  | some (.table .implied old) => some (table form (replace key (table .declared old) entries))
  | some _ => none

/-- Adds a table to the list of tables with the given last name. -/
def declareNext (key : String) (form : TableForm) (entries : Entries) : Option Toml :=
  match entries.lookup key with
  | none => some (table form (entries ++ [(key, tables [table .declared []])]))
  | some (.tables elements) =>
    some (table form (replace key (tables (elements ++ [table .declared []])) entries))
  | some _ => none

end Toml

end FieldGraft
