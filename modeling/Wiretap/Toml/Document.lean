import Wiretap.Toml.Scalar

/-!
# TOML documents

A document is read line by line into a tree whose tables remember how they
came to be: by a header, by a longer header, by a dotted key, or inline. No
key is given twice, and a table is neither reopened nor extended in another
way than the one it was made in.
-/

set_option autoImplicit false

namespace Wiretap.Toml

inductive Origin where
  | header
  | implied
  | dotted
  deriving DecidableEq, Repr

inductive Node where
  | value (v : Value)
  | table (origin : Origin) (entries : List (String × Node))
  | tables (items : List (List (String × Node)))
  deriving Inhabited

abbrev Nodes := List (String × Node)

def find? {α : Type} (name : String) (entries : List (String × α)) : Option α :=
  (entries.find? (fun e => e.1 == name)).map (·.2)

def store {α : Type} (name : String) (a : α) (entries : List (String × α)) :
    List (String × α) :=
  if entries.any (fun e => e.1 == name) then
    entries.map (fun e => if e.1 == name then (name, a) else e)
  else entries ++ [(name, a)]

def assign (v : Node) : List String → Nodes → Option Nodes
  | [], _ => none
  | [name], entries => if (find? name entries).isSome then none else some (entries ++ [(name, v)])
  | name :: path, entries =>
    match find? name entries with
    | none => (assign v path []).map (fun sub => entries ++ [(name, .table .dotted sub)])
    | some (.table .dotted sub) =>
      (assign v path sub).map (fun sub => store name (.table .dotted sub) entries)
    | some _ => none

def descend (f : String → Nodes → Option Nodes) : List String → Nodes → Option Nodes
  | [], _ => none
  | [name], entries => f name entries
  | name :: path, entries =>
    match find? name entries with
    | none => (descend f path []).map (fun sub => entries ++ [(name, .table .implied sub)])
    | some (.table origin sub) =>
      (descend f path sub).map (fun sub => store name (.table origin sub) entries)
    | some (.tables items) =>
      match items.getLast? with
      | some last => (descend f path last).map
          (fun sub => store name (.tables (items.dropLast ++ [sub])) entries)
      | none => none
    | some (.value _) => none

def openTable (name : String) (entries : Nodes) : Option Nodes :=
  match find? name entries with
  | none => some (entries ++ [(name, .table .header [])])
  | some (.table .implied sub) => some (store name (.table .header sub) entries)
  | some _ => none

def openItem (name : String) (entries : Nodes) : Option Nodes :=
  match find? name entries with
  | none => some (entries ++ [(name, .tables [[]])])
  | some (.tables items) => some (store name (.tables (items ++ [[]])) entries)
  | some _ => none

def assignIn (v : Node) (keyPath : List String) : List String → Nodes → Option Nodes
  | [], entries => assign v keyPath entries
  | name :: path, entries =>
    match find? name entries with
    | some (.table origin sub) =>
      (assignIn v keyPath path sub).map (fun sub => store name (.table origin sub) entries)
    | some (.tables items) =>
      match items.getLast? with
      | some last => (assignIn v keyPath path last).map
          (fun sub => store name (.tables (items.dropLast ++ [sub])) entries)
      | none => none
    | _ => none

mutual

def Node.toValue : Node → Value
  | .value v => v
  | .table _ entries => .table (entriesValue entries)
  | .tables items => .array (itemsValue items)

def entriesValue : Nodes → Entries
  | [] => []
  | (name, node) :: rest => (name, node.toValue) :: entriesValue rest

def itemsValue : List Nodes → List Value
  | [] => []
  | entries :: rest => .table (entriesValue entries) :: itemsValue rest

end

mutual

def value : Nat → Nat → Text → Option (Value × Text)
  | 0, _, _ => none
  | fuel + 1, depth, cs =>
    match cs with
    | '[' :: rest => if depth = 0 then none else items fuel (depth - 1) [] rest
    | '\x7b' :: rest => if depth = 0 then none else members fuel (depth - 1) [] rest
    | '"' :: _ => (quoted cs).map (fun (s, r) => (.string s, r))
    | '\'' :: _ => (quoted cs).map (fun (s, r) => (.string s, r))
    | _ => scalar cs

def items : Nat → Nat → List Value → Text → Option (Value × Text)
  | 0, _, _, _ => none
  | fuel + 1, depth, seen, cs => do
    match ← skipLines cs with
    | ']' :: rest => some (.array seen.reverse, rest)
    | cs => do
      let (v, rest) ← value fuel depth cs
      match ← skipLines rest with
      | ',' :: rest => items fuel depth (v :: seen) rest
      | ']' :: rest => some (.array (v :: seen).reverse, rest)
      | _ => none

def members : Nat → Nat → Nodes → Text → Option (Value × Text)
  | 0, _, _, _ => none
  | fuel + 1, depth, seen, cs => do
    match ← skipLines cs with
    | '\x7d' :: rest => some (.table (entriesValue seen), rest)
    | cs => do
      let (path, rest) ← key cs
      let rest ← after '=' (← skipLines rest)
      let (v, rest) ← value fuel depth (← skipLines rest)
      let seen ← assign (.value v) path seen
      match ← skipLines rest with
      | ',' :: rest => members fuel depth seen rest
      | '\x7d' :: rest => some (.table (entriesValue seen), rest)
      | _ => none

end

def linesOf : Nat → List String → Nodes → Text → Option Nodes
  | 0, _, _, _ => none
  | fuel + 1, current, root, cs => do
    match ← skipLines cs with
    | [] => some root
    | '[' :: '[' :: rest => do
      let (path, rest) ← key rest
      let rest ← after ']' rest
      let rest ← after ']' rest
      let rest ← endLine rest
      linesOf fuel path (← descend openItem path root) rest
    | '[' :: rest => do
      let (path, rest) ← key rest
      let rest ← after ']' rest
      let rest ← endLine rest
      linesOf fuel path (← descend openTable path root) rest
    | cs => do
      let (path, rest) ← key cs
      let rest ← after '=' rest
      let (v, rest) ← value (rest.length + 1) deepest (skipBlank rest)
      let rest ← endLine rest
      linesOf fuel current (← assignIn (.value v) path current root) rest

def document? (cs : Text) : Option Entries :=
  let cs := match cs with
    | '\uFEFF' :: rest => rest
    | _ => cs
  (linesOf (cs.length + 1) [] [] cs).map entriesValue

end Wiretap.Toml
