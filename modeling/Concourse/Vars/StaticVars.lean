import Concourse.Lib.GoJson
import Concourse.Lib.GoSlice
import Concourse.Vars.Reference

/-!
# Static variables, flattened and expanded

`vars/static_vars.go`: `StaticVariables` is a map of values, `Flatten` lists one `KVPair`
for each leaf under its path and fields, and `KVPairs.Expand` builds the map back, setting
each pair's value at its place with `upsert`.

`flatten` passes `append(fields, k)` to the call for each key `k` of a map.  When `fields`
has spare capacity, the appends for the keys of one map write one cell of one array, and the
pairs already listed for an earlier key see the later key in their fields: the model keeps
the fields as slices over a heap (`GoSlice`) and reads them once the walk is over.  A map is
ranged over in the order of its keys.
-/

namespace Concourse
namespace Vars

open GoJson

/-- `KVPair`. -/
structure KVPair where
  ref : Reference
  value : Value
  deriving DecidableEq, Repr

/-- A pair as `flatten` lists it: its fields a slice, read when the walk is over. -/
structure FlatPair where
  path : String
  fields : GoSlice.Slice
  value : Value

/-- `append` on a `[]string`: 16-byte elements holding pointers. -/
def appendField (heap : List (List String)) (fields : GoSlice.Slice) (k : String) :
    List (List String) × GoSlice.Slice :=
  GoSlice.append 16 false heap fields k

mutual
/-- `flatten(path, fields, value)`: a map lists the pairs of its entries, anything else is a
leaf. -/
def flatten (heap : List (List String)) (path : String) (fields : GoSlice.Slice) :
    Value → List (List String) × List FlatPair
  | .object members => flattenMembers heap path fields members
  | value => (heap, [⟨path, fields, value⟩])

/-- The loop of `flatten` over the entries of a map. -/
def flattenMembers (heap : List (List String)) (path : String) (fields : GoSlice.Slice) :
    List (String × Value) → List (List String) × List FlatPair
  | [] => (heap, [])
  | (k, v) :: members =>
    let (heap, childFields) := appendField heap fields k
    let (heap, flat) := flatten heap path childFields v
    let (heap, rest) := flattenMembers heap path fields members
    (heap, flat ++ rest)
end

/-- The loop of `StaticVariables.Flatten` over the variables. -/
def flattenVars (heap : List (List String)) :
    List (String × Value) → List (List String) × List FlatPair
  | [] => (heap, [])
  | (k, vv) :: vars =>
    let (heap, flat) := flatten heap k GoSlice.nil vv
    let (heap, rest) := flattenVars heap vars
    (heap, flat ++ rest)

/-- `StaticVariables.Flatten`: each pair's fields as its slice sees them once every append
is done. -/
def staticVariablesFlatten (v : List (String × Value)) : List KVPair :=
  let (heap, flat) := flattenVars [] v
  flat.map fun pair => ⟨⟨"", pair.path, pair.fields.elems heap⟩, pair.value⟩

/-- `constructValue`: the value under nested one-entry maps of the fields. -/
def constructValue (fields : List String) (value : Value) : Value :=
  fields.foldr (fun field v => .object [(field, v)]) value

/-- `upsert`: the value set under `path` and `fields`, into a map found there or in place of
whatever else is there. -/
def upsert (out : List (String × Value)) (path : String) (fields : List String) (value : Value) :
    List (String × Value) :=
  match out.lookup path, fields with
  | some (.object _), [] => mapInsert out path value
  | some (.object nodeMap), field :: fields =>
    mapInsert out path (.object (upsert nodeMap field fields value))
  | _, fields => mapInsert out path (constructValue fields value)

/-- `KVPairs.Expand`. -/
def kvPairsExpand (p : List KVPair) : List (String × Value) :=
  p.foldl (fun out pair => upsert out pair.ref.path pair.ref.fields pair.value) []

/-! ## Sibling leaves on one array -/

/-- A value that is not a map is its own pair. -/
theorem flatten_of_leaf (heap : List (List String)) (path : String) (fields : GoSlice.Slice)
    {value : Value} (hleaf : ∀ members, value ≠ .object members) :
    flatten heap path fields value = (heap, [⟨path, fields, value⟩]) := by
  cases value with
  | object members => exact absurd rfl (hleaf members)
  | _ => rfl

/-- A map of leaves under fields with room to grow: each key is written into the one cell after
the fields, and every pair holds the slice that reads that cell. -/
theorem flattenMembers_leaves_of_lt {path : String} {fields : GoSlice.Slice}
    (hspare : fields.len < fields.cap) :
    ∀ (heap : List (List String)) (members : List (String × Value)),
      (∀ m ∈ members, ∀ entries, m.2 ≠ .object entries) →
      flattenMembers heap path fields members =
        ((members.map (·.1)).foldl (fun heap k => heap.modify fields.array (·.set fields.len k))
          heap, members.map fun m => ⟨path, { fields with len := fields.len + 1 }, m.2⟩)
  | heap, [], _ => rfl
  | heap, (k, v) :: members, hleaves => by
    have hleaf : ∀ entries, v ≠ .object entries := hleaves (k, v) List.mem_cons_self
    have hrest := @flattenMembers_leaves_of_lt path fields hspare
      (heap.modify fields.array (·.set fields.len k)) members
      fun m hm => hleaves m (List.mem_cons_of_mem _ hm)
    simp only [flattenMembers, appendField, GoSlice.append_of_lt 16 false heap hspare,
      flatten_of_leaf _ _ _ hleaf, hrest, List.map_cons, List.foldl_cons, List.singleton_append]

/-- Every pair of such a map names the last key: the appends for the keys of one map share a
cell when the fields have spare capacity, so distinct leaves end up with one reference. -/
theorem flattenMembers_leaves_read_last {heap : List (List String)} {path : String}
    {fields : GoSlice.Slice} {members : List (String × Value)} (hspare : fields.len < fields.cap)
    (harray : fields.array < heap.length)
    (hcell : fields.len < (heap.getD fields.array []).length)
    (hleaves : ∀ m ∈ members, ∀ entries, m.2 ≠ .object entries) (hne : members ≠ []) :
    ∀ pair ∈ (flattenMembers heap path fields members).2,
      pair.fields.elems (flattenMembers heap path fields members).1 =
        fields.elems heap ++ [(members.getLast hne).1] := by
  intro pair hpair
  rw [flattenMembers_leaves_of_lt hspare heap members hleaves] at hpair ⊢
  obtain ⟨m, -, rfl⟩ := List.mem_map.mp hpair
  -- the keys are those before the last one, then the last one
  have hkeys : members.map (·.1) = (members.dropLast.map (·.1)) ++ [(members.getLast hne).1] := by
    conv_lhs => rw [← List.dropLast_append_getLast hne]
    simp
  rw [hkeys, GoSlice.foldl_modify_set]
  exact GoSlice.elems_modify_set _ harray hcell

/-- Two leaves under a map four keys down: the fields `[a, b, c]` have spare capacity, so `e`
overwrites the cell that `d`'s pair reads, both pairs name `p.a.b.c.e`, and expanding them
keeps the second leaf only. -/
theorem staticVariablesFlatten_siblings_deep :
    let sv : List (String × Value) := [("p", .object [("a", .object [("b", .object
      [("c", .object [("d", .string "1"), ("e", .string "2")])])])])]
    staticVariablesFlatten sv =
        [⟨⟨"", "p", ["a", "b", "c", "e"]⟩, .string "1"⟩,
          ⟨⟨"", "p", ["a", "b", "c", "e"]⟩, .string "2"⟩] ∧
      kvPairsExpand (staticVariablesFlatten sv) =
        [("p", .object [("a", .object [("b", .object [("c", .object [("e", .string "2")])])])])] := by
  decide

end Vars
end Concourse
