/-
  Reading YAML documents as data values.

  * `Yaml.read` gives the value of the first document of a text.
  * Values behind aliases are read again for each alias; a document in which
    too much comes from aliases is refused.
  * In the classic dialect the fields of a record come in ascending order.
-/
import ObjectLowering.Data.Yaml.Key
import ObjectLowering.Text.Order

namespace ObjectLowering.Data.Yaml

/-! ## How much comes from aliases -/

/-- How many nodes were read, and how many of them behind aliases. -/
structure Tally where
  nodes : Nat := 0
  aliased : Nat := 0

/-- Too much comes from aliases: more than 99 parts of 100, and in large documents fewer and fewer
    parts, down to 10. -/
def Tally.isExcessive (t : Tally) : Bool :=
  let low := 400000
  let range := 3600000
  let parts := if t.nodes ≤ low then 99 * range
    else if low + range ≤ t.nodes then 10 * range
    else 99 * range - 89 * (t.nodes - low)
  100 < t.aliased && 1000 < t.nodes && parts * t.nodes < 100 * range * t.aliased

/-- Counts one more node. -/
def Tally.count? (t : Tally) (inAlias : Bool) : Option Tally :=
  let t := { nodes := t.nodes + 1, aliased := t.aliased + if inAlias then 1 else 0 : Tally }
  if t.isExcessive then none else some t

/-! ## Values -/

/-- The entries of a mapping that were read, by their keys. -/
abbrev Entries := List (Value × Value)

/-- The key of a scalar, given its value. In the dialect that merges below, keys count as they are
    written. -/
def keyValue (d : Dialect) (n : Node) (v : Value) : Value :=
  match n.target, v with
  | .scalar _ _ text, v => if d.mergesBelow && !v.isNull then .text text else v
  | _, v => v

/-- Adds an entry; in the dialect that does not merge below, its key has to be new. -/
def addEntry? (d : Dialect) (entered : Entries) (k v : Value) : Option Entries :=
  match k with
  | .list _ | .record _ => none
  | k =>
    if !d.mergesBelow ∧ entered.any (fun e => sameKey k e.1) then none else some ((k, v) :: entered)

/-- The record of entries, given last first. In the dialect that merges below, `null` names
    nothing. -/
def recordOf? (d : Dialect) (es : Entries) : Option Value := do
  if d.mergesBelow then
    return .record (es.reverse.filterMap fun (k, v) => (keyName? k).map (·, v))
  else
    let fields ← es.reverse.mapM fun (k, v) => (keyName? k).map (·, v)
    return .record (Text.sortByKey (·.1) fields)

mutual

/-- The value of a node; `inAlias` says that it stands behind an alias. -/
def value? (d : Dialect) (inAlias : Bool) (t : Tally) : Node → Option (Value × Tally)
  | .scalar tag isPlain text => do
    let t ← t.count? inAlias
    return (← scalarValue? d tag isPlain text, t)
  | .alias _ target => do
    let t ← t.count? inAlias
    value? d true t target
  | .sequence items => do
    let t ← t.count? inAlias
    let (vs, t) ← values? d inAlias t items
    return (.list vs, t)
  | .mapping es => do
    let t ← t.count? inAlias
    if d.mergesBelow ∧ !areDistinct es then none
    let (entered, t) ← entries? d inAlias t false [] es
    let (entered, t) ← mergedEntries? d inAlias t entered es
    return (← recordOf? d entered, t)

/-- The values of items. -/
def values? (d : Dialect) (inAlias : Bool) (t : Tally) : List Node → Option (List Value × Tally)
  | [] => some ([], t)
  | n :: rest => do
    let (v, t) ← value? d inAlias t n
    let (vs, t) ← values? d inAlias t rest
    return (v :: vs, t)

/-- Adds the entries of a mapping, those apart that merge others into it. In a mapping that is
    being merged below others, keys that are there already are passed over. -/
def entries? (d : Dialect) (inAlias : Bool) (t : Tally) (merging : Bool) (entered : Entries) :
    List (Node × Node) → Option (Entries × Tally)
  | [] => some (entered, t)
  | (k, v) :: rest =>
    if k.isMerge d then entries? d inAlias t merging entered rest
    else do
      let (key, t) ← value? d inAlias t k
      let key := keyValue d k key
      if merging && d.mergesBelow && entered.any (fun e => sameKey key e.1) then
        entries? d inAlias t merging entered rest
      else
        let (v, t) ← value? d inAlias t v
        let entered ← addEntry? d entered key v
        entries? d inAlias t merging entered rest

/-- Adds the entries that are merged into a mapping. -/
def mergedEntries? (d : Dialect) (inAlias : Bool) (t : Tally) (entered : Entries) :
    List (Node × Node) → Option (Entries × Tally)
  | [] => some (entered, t)
  | (k, v) :: rest =>
    if k.isMerge d then do
      let (entered, t) ← mergeSource? d inAlias true t entered v
      mergedEntries? d inAlias t entered rest
    else mergedEntries? d inAlias t entered rest

/-- Merges a mapping, perhaps behind an alias, or all mappings of a sequence. -/
def mergeSource? (d : Dialect) (inAlias takesSequence : Bool) (t : Tally) (entered : Entries) :
    Node → Option (Entries × Tally)
  | .scalar .. => none
  | .sequence items => if takesSequence then mergeAll? d inAlias t entered items else none
  | .alias _ target => do
    let t ← t.count? inAlias
    mergeSource? d true false t entered target
  | .mapping es => do
    let t ← t.count? inAlias
    if d.mergesBelow ∧ !areDistinct es then none
    let (entered, t) ← entries? d inAlias t true entered es
    mergedEntries? d inAlias t entered es

/-- Merges the mappings of a sequence, the later below the earlier ones. -/
def mergeAll? (d : Dialect) (inAlias : Bool) (t : Tally) (entered : Entries) :
    List Node → Option (Entries × Tally)
  | [] => some (entered, t)
  | n :: rest => do
    let (entered, t) ← mergeSource? d inAlias false t entered n
    mergeAll? d inAlias t entered rest

end

/-- The value of the first document of a text; a text without any is `null`. -/
def read (d : Dialect) (text : String) : Option Value := do
  match ← Source.readDocument d text with
  | none => return .null
  | some n =>
    let (v, _) ← value? d false { nodes := 1 } n
    return v

end ObjectLowering.Data.Yaml
