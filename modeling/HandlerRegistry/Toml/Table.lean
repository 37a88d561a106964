import HandlerRegistry.Toml.Value

/-!
# Adding to the tables of a document

Every line of a document adds to the table that the lines before it have built. What may be added
where depends on how a table came to be.

* `changeAt`: a change of the table at a path, with the tables on the way made as needed.
* `addPair`: a key with its value added to a table.
* `addHeader`, `addElement`: a table opened by a header, or a new element of an array of tables.
-/

namespace HandlerRegistry.Toml
set_option autoImplicit false

/-- What leads to a table: the path of a header or a dotted key. -/
inductive Route where
  | header
  | dotted
deriving DecidableEq, Repr

/-- The form of a table that a route makes on its way. -/
def Route.form : Route → TableForm
  | .header => .implied
  | .dotted => .dotted

/-- The form that a table has after a route has passed through it, if the route may. Nothing passes
through a table in braces, and a dotted key through none that has a header. A dotted key takes over
a table that was only implied, so that it can no longer be given a header. -/
def Route.through : Route → TableForm → Option TableForm
  | _, .inline => none
  | .dotted, .header => none
  | .dotted, .implied => some .dotted
  | _, form => some form

/-- The entries with the value of one key changed. The change sees no value if there is none, and
may refuse. -/
def changeKey (key : String) (change : Option Value → Option Value) : Entries → Option Entries
  | [] => (change none).map fun value => [(key, value)]
  | (name, value) :: rest =>
    if name = key then (change (some value)).map fun value => (name, value) :: rest
    else (changeKey key change rest).map fun rest => (name, value) :: rest

/-- Some items with the last one changed. -/
def changeLast (change : Value → Option Value) : List Value → Option (List Value)
  | [] => none
  | [item] => (change item).map fun item => [item]
  | item :: rest => (changeLast change rest).map fun rest => item :: rest

/-- The entries of a table with a change made to the table at a path below it. The path leads into
the last element of an array of tables. -/
def changeAt (route : Route) (change : TableForm → Entries → Option Entries) :
    List String → TableForm → Entries → Option Entries
  | [], form, entries => change form entries
  | key :: path, _, entries =>
    let inside : TableForm → Entries → Option Value := fun form entries =>
      (changeAt route change path form entries).map (.table form)
    changeKey key
      (fun
        | none => inside route.form []
        | some (.table form entries) => (route.through form).bind fun form => inside form entries
        | some (.array .tables items) =>
          (changeLast
            (fun
              | .table form entries => inside form entries
              | _ => none)
            items).map (.array .tables)
        | some _ => none)
      entries

def addNew (key : String) (value : Value) (entries : Entries) : Option Entries :=
  changeKey key
    (fun
      | none => some value
      | some _ => none)
    entries

/-- A key and its value added to a table. A table that dotted keys have made takes no other keys,
and no other table takes dotted ones. -/
def addPair (key : List String × String) (value : Value) (form : TableForm) (entries : Entries) :
    Option Entries :=
  changeAt .dotted
    (fun form entries =>
      if (form = .dotted) = (key.1 = []) then none else addNew key.2 value entries)
    key.1 form entries

/-- The table that a header opens: a new one, or one that was only implied. -/
def addHeader (key : List String × String) (root : Entries) : Option Entries :=
  changeAt .header
    (fun _ entries =>
      changeKey key.2
        (fun
          | none => some (.table .header [])
          | some (.table .implied inner) => some (.table .header inner)
          | some _ => none)
        entries)
    key.1 .header root

/-- A new last element of an array of tables. -/
def addElement (key : List String × String) (root : Entries) : Option Entries :=
  changeAt .header
    (fun _ entries =>
      changeKey key.2
        (fun
          | none => some (.array .tables [.table .header []])
          | some (.array .tables items) => some (.array .tables (items ++ [.table .header []]))
          | some _ => none)
        entries)
    key.1 .header root

end HandlerRegistry.Toml
