import MotorSupervisor.Toml.Document

/-!
# Keys of a document

No table of a document has a key twice, at any depth.  A table under construction gets
a new entry only where it has none of that key, and a value is finished before it
becomes an entry, so that the property holds of every table at every time, whatever
the expressions of the document are.

**Definitions.**
* `KeysDistinct`: a table without a repeated key.
* `Value.Distinct`, `Node.Distinct`, `Table.Distinct`: so at every depth.

**Results.**
* `lookup_eq_some_iff`, `lookup_eq_of_perm`: look-up where no key is repeated.
* `keys_put`, `Table.Distinct.put`: one entry more, or another one in its place.
* `Table.Distinct.modify`: a change of an inner table.
* `readsDistinct`: the values that are read from a text.
* `distinct_of_ofBytes`: documents.
-/

namespace MotorSupervisor
namespace Toml

/-- No key stands for two entries. -/
def KeysDistinct {β : Type} (entries : List (String × β)) : Prop :=
  (entries.map Prod.fst).Nodup

/-- No table in the value has a repeated key. -/
inductive Value.Distinct : Value → Prop
  | string (text : String) : Distinct (.string text)
  | integer (i : Int) : Distinct (.integer i)
  | float (x : Double) : Distinct (.float x)
  | boolean (b : Bool) : Distinct (.boolean b)
  | dateTime (text : String) : Distinct (.dateTime text)
  | unreadable : Distinct .unreadable
  | array {items : List Value} (hitems : ∀ item ∈ items, Distinct item) :
      Distinct (.array items)
  | table {entries : Entries} (hkeys : KeysDistinct entries)
      (hentries : ∀ entry ∈ entries, Distinct entry.2) : Distinct (.table entries)

/-- No table under construction has a repeated key. -/
inductive Node.Distinct : Node → Prop
  | closed {value : Value} (hvalue : value.Distinct) : Distinct (.closed value)
  | table {origin : Origin} {nodes : List (String × Node)} (hkeys : KeysDistinct nodes)
      (hnodes : ∀ entry ∈ nodes, Distinct entry.2) : Distinct (.table origin nodes)
  | rows {tables : List (List (String × Node))}
      (hkeys : ∀ row ∈ tables, KeysDistinct row)
      (hnodes : ∀ row ∈ tables, ∀ entry ∈ row, Distinct entry.2) : Distinct (.rows tables)

/-- The same of a table with its origin. -/
structure Table.Distinct (t : Table) : Prop where
  keys : KeysDistinct t.nodes
  nodes : ∀ entry ∈ t.nodes, entry.2.Distinct

theorem exists_mem_of_lookup {β : Type} {key : String} {entries : List (String × β)} {b : β}
    (h : entries.lookup key = some b) : (key, b) ∈ entries := by
  induction entries with
  | nil => cases h
  | cons entry rest ih =>
      rw [List.lookup_cons] at h
      split at h
      · rename_i heq
        obtain rfl := eq_of_beq heq
        obtain rfl := Option.some.inj h
        exact List.mem_cons_self
      · exact List.mem_cons_of_mem _ (ih h)

/-- Every entry of a table without repeated keys is found under its key. -/
theorem lookup_eq_some_iff {β : Type} {key : String} {value : β} {entries : List (String × β)}
    (h : KeysDistinct entries) :
    entries.lookup key = some value ↔ (key, value) ∈ entries := by
  refine ⟨exists_mem_of_lookup, fun hmem => ?_⟩
  induction entries with
  | nil => exact absurd hmem List.not_mem_nil
  | cons entry rest ih =>
      obtain ⟨hnew, hrest⟩ := List.nodup_cons.1 h
      rcases List.mem_cons.1 hmem with rfl | hmem
      · exact List.lookup_cons_self
      · have hne : key ≠ entry.1 := by
          rintro rfl
          exact hnew (List.mem_map.2 ⟨_, hmem, rfl⟩)
        rw [List.lookup_cons, beq_eq_false_iff_ne.2 hne]
        exact ih hrest hmem

theorem lookup_eq_of_perm {β : Type} {x y : List (String × β)} (h : KeysDistinct x)
    (hperm : x.Perm y) (key : String) : x.lookup key = y.lookup key := by
  have hy : KeysDistinct y := (hperm.map Prod.fst).nodup_iff.1 h
  refine Option.ext fun value => ?_
  rw [lookup_eq_some_iff h, lookup_eq_some_iff hy, hperm.mem_iff]

theorem lookup_cons_of_ne {β : Type} {key other : String} (h : key ≠ other) (value : β)
    (entries : List (String × β)) :
    ((other, value) :: entries).lookup key = entries.lookup key := by
  rw [List.lookup_cons, beq_eq_false_iff_ne.2 h]

/-- An entry takes the place of one with its key, or the last place. -/
theorem keys_put (key : String) (node : Node) (nodes : List (String × Node)) :
    (Table.put.go key node nodes).map Prod.fst =
      if key ∈ nodes.map Prod.fst then nodes.map Prod.fst else nodes.map Prod.fst ++ [key] := by
  induction nodes with
  | nil => rfl
  | cons entry rest ih =>
      rw [Table.put.go]
      by_cases hkey : entry.1 = key
      · rw [if_pos hkey, if_pos (by simp [hkey])]
        rfl
      · have hmem : key ∈ (entry :: rest).map Prod.fst ↔ key ∈ rest.map Prod.fst := by
          rw [List.map_cons, List.mem_cons]
          exact or_iff_right fun h => hkey h.symm
        rw [if_neg hkey, List.map_cons, ih]
        by_cases hrest : key ∈ rest.map Prod.fst
        · rw [if_pos hrest, if_pos (hmem.2 hrest), List.map_cons]
        · rw [if_neg hrest, if_neg (mt hmem.1 hrest), List.map_cons, List.cons_append]

theorem mem_put {key : String} {node : Node} {nodes : List (String × Node)}
    {entry : String × Node} (h : entry ∈ Table.put.go key node nodes) :
    entry = (key, node) ∨ entry ∈ nodes := by
  induction nodes with
  | nil => exact Or.inl (List.mem_singleton.1 h)
  | cons first rest ih =>
      rw [Table.put.go] at h
      split at h
      · rename_i hkey
        rcases List.mem_cons.1 h with rfl | hrest
        · exact Or.inl (by rw [hkey])
        · exact Or.inr (List.mem_cons_of_mem _ hrest)
      · rcases List.mem_cons.1 h with rfl | hrest
        · exact Or.inr List.mem_cons_self
        · exact (ih hrest).imp_right (List.mem_cons_of_mem _)

namespace Table.Distinct

variable {t t' : Table} {key : String} {node : Node} {value : Value} {path : List String}

theorem empty (origin : Origin) : (Table.empty origin).Distinct :=
  ⟨List.nodup_nil, fun _ hentry => absurd hentry List.not_mem_nil⟩

theorem put (h : t.Distinct) (hnode : node.Distinct) : (t.put key node).Distinct := by
  constructor
  case keys =>
    show (_ : List String).Nodup
    rw [Table.put, keys_put]
    split
    · exact h.keys
    · rename_i hnew
      exact List.nodup_append.2 ⟨h.keys, List.pairwise_singleton _ _,
        fun a ha b hb hab => hnew (by rw [← List.mem_singleton.1 hb, ← hab]; exact ha)⟩
  case nodes =>
    intro entry hentry
    rcases mem_put hentry with rfl | hmem
    · exact hnode
    · exact h.nodes entry hmem

theorem node_of_lookup (h : t.Distinct) (hlookup : t.nodes.lookup key = some node) :
    node.Distinct :=
  h.nodes _ (exists_mem_of_lookup hlookup)

/-- A change of an inner table, if the change itself does no harm. -/
theorem modify {made : Origin} {change : Table → Option Table} (h : t.Distinct)
    (hchange : ∀ u u', u.Distinct → change u = some u' → u'.Distinct)
    (hmodify : t.modify made change path = some t') : t'.Distinct := by
  induction path generalizing t t' with
  | nil => exact hchange t t' h hmodify
  | cons key path ih =>
      rw [Table.modify] at hmodify
      split at hmodify
      · obtain ⟨inner, hinner, hput⟩ := Option.bind_eq_some_iff.1 hmodify
        obtain rfl := Option.some.inj hput
        have hdistinct := ih (Table.Distinct.empty made) hinner
        exact h.put (.table hdistinct.keys hdistinct.nodes)
      · cases hmodify
      · rename_i origin nodes hlookup
        split at hmodify
        · cases hmodify
        · obtain ⟨inner, hinner, hput⟩ := Option.bind_eq_some_iff.1 hmodify
          obtain rfl := Option.some.inj hput
          cases h.node_of_lookup hlookup with
          | table hkeys hnodes =>
              have hdistinct := ih (t := ⟨origin, nodes⟩) ⟨hkeys, hnodes⟩ hinner
              exact h.put (.table hdistinct.keys hdistinct.nodes)
      · rename_i earlier hlookup
        split at hmodify
        · cases hmodify
        · rename_i last hlast
          obtain ⟨inner, hinner, hput⟩ := Option.bind_eq_some_iff.1 hmodify
          obtain rfl := Option.some.inj hput
          cases h.node_of_lookup hlookup with
          | rows hkeys hnodes =>
              have hmem : last ∈ earlier := List.mem_of_getLast? hlast
              have hdistinct :=
                ih (t := ⟨.header, last⟩) ⟨hkeys last hmem, hnodes last hmem⟩ hinner
              refine h.put (.rows (fun row hrow => ?_) fun row hrow => ?_)
              all_goals rcases List.mem_append.1 hrow with hrow | hrow
              · exact hkeys row (List.dropLast_subset _ hrow)
              · rw [List.mem_singleton.1 hrow]
                exact hdistinct.keys
              · exact hnodes row (List.dropLast_subset _ hrow)
              · rw [List.mem_singleton.1 hrow]
                exact hdistinct.nodes

theorem add (h : t.Distinct) (hvalue : value.Distinct) (hadd : t.add key value = some t') :
    t'.Distinct := by
  unfold Table.add at hadd
  split at hadd
  · obtain rfl := Option.some.inj hadd
    exact h.put (.closed hvalue)
  · cases hadd

theorem assign (h : t.Distinct) (hvalue : value.Distinct)
    (hassign : t.assign path value = some t') : t'.Distinct := by
  unfold Table.assign at hassign
  split at hassign
  · cases hassign
  · refine h.modify (fun u u' hu hchange => ?_) hassign
    split at hchange
    · cases hchange
    · exact hu.add hvalue hchange

theorem define (h : t.Distinct) (hdefine : t.define path = some t') : t'.Distinct := by
  unfold Table.define at hdefine
  split at hdefine
  · cases hdefine
  · refine h.modify (fun u u' hu hchange => ?_) hdefine
    split at hchange
    · obtain rfl := Option.some.inj hchange
      exact hu.put (.table List.nodup_nil fun _ hentry => absurd hentry List.not_mem_nil)
    · rename_i nodes hlookup
      obtain rfl := Option.some.inj hchange
      cases hu.node_of_lookup hlookup with
      | table hkeys hnodes => exact hu.put (.table hkeys hnodes)
    · cases hchange

theorem defineRow (h : t.Distinct) (hdefine : t.defineRow path = some t') : t'.Distinct := by
  have hempty : KeysDistinct ([] : List (String × Node)) ∧
      ∀ entry ∈ ([] : List (String × Node)), entry.2.Distinct :=
    ⟨List.nodup_nil, fun _ hentry => absurd hentry List.not_mem_nil⟩
  unfold Table.defineRow at hdefine
  split at hdefine
  · cases hdefine
  · refine h.modify (fun u u' hu hchange => ?_) hdefine
    split at hchange
    · obtain rfl := Option.some.inj hchange
      refine hu.put (.rows (fun row hrow => ?_) fun row hrow => ?_)
      all_goals rw [List.mem_singleton.1 hrow]
      · exact hempty.1
      · exact hempty.2
    · rename_i earlier hlookup
      obtain rfl := Option.some.inj hchange
      cases hu.node_of_lookup hlookup with
      | rows hkeys hnodes =>
          refine hu.put (.rows (fun row hrow => ?_) fun row hrow => ?_)
          all_goals rcases List.mem_append.1 hrow with hrow | hrow
          · exact hkeys row hrow
          · rw [List.mem_singleton.1 hrow]
            exact hempty.1
          · exact hnodes row hrow
          · rw [List.mem_singleton.1 hrow]
            exact hempty.2
    · cases hchange

end Table.Distinct

/-- The entries of a table in braces. -/
theorem distinct_of_pairs {pairs : List (List String × Value)} {t t' : Table}
    (h : t.Distinct) (hpairs : ∀ pair ∈ pairs, pair.2.Distinct)
    (hfold : pairs.foldlM (fun (t : Table) pair => t.assign pair.1 pair.2) t = some t') :
    t'.Distinct := by
  induction pairs generalizing t with
  | nil =>
      obtain rfl := Option.some.inj hfold
      exact h
  | cons pair pairs ih =>
      rw [List.forall_mem_cons] at hpairs
      rw [List.foldlM_cons] at hfold
      obtain ⟨next, hassign, hrest⟩ := Option.bind_eq_some_iff.1 hfold
      exact ih (h.assign hpairs.1 hassign) hpairs.2 hrest

theorem entries_eq_map (nodes : List (String × Node)) :
    Node.entries nodes = nodes.map fun entry => (entry.1, entry.2.value) := by
  induction nodes with
  | nil => rfl
  | cons entry rest ih => rw [Node.entries, ih, List.map_cons]

theorem tables_eq_map (tables : List (List (String × Node))) :
    Node.tables tables = tables.map fun row => .table (Node.entries row) := by
  induction tables with
  | nil => rfl
  | cons row rest ih => rw [Node.tables, ih, List.map_cons]

/-- The finished entries of a table, if the values of its nodes are as they should be. -/
theorem distinct_entries {nodes : List (String × Node)} (hkeys : KeysDistinct nodes)
    (hvalues : ∀ entry ∈ nodes, entry.2.value.Distinct) :
    KeysDistinct (Node.entries nodes) ∧ ∀ entry ∈ Node.entries nodes, entry.2.Distinct := by
  rw [entries_eq_map]
  constructor
  · rw [KeysDistinct, List.map_map]
    exact hkeys
  · intro entry hentry
    obtain ⟨node, hnode, rfl⟩ := List.mem_map.1 hentry
    exact hvalues node hnode

/-- Forgetting how a table came to be leaves its keys alone. -/
theorem Node.Distinct.value {node : Node} (h : node.Distinct) : node.value.Distinct := by
  induction h with
  | closed hvalue => exact hvalue
  | table hkeys hnodes ih =>
      obtain ⟨hkeys', hvalues⟩ := distinct_entries hkeys ih
      exact .table hkeys' hvalues
  | @rows tables hkeys hnodes ih =>
      rw [Node.value, tables_eq_map]
      refine .array fun item hitem => ?_
      obtain ⟨row, hrow, rfl⟩ := List.mem_map.1 hitem
      obtain ⟨hkeys', hvalues⟩ := distinct_entries (hkeys row hrow) (ih row hrow)
      exact .table hkeys' hvalues

theorem Table.Distinct.entries {t : Table} (h : t.Distinct) :
    KeysDistinct t.entries ∧ ∀ entry ∈ t.entries, entry.2.Distinct :=
  distinct_entries h.keys fun entry hentry => (h.nodes entry hentry).value

theorem distinct_of_entriesOf? {pairs : List (List String × Value)} {entries : Entries}
    (hpairs : ∀ pair ∈ pairs, pair.2.Distinct) (h : entriesOf? pairs = some entries) :
    (Value.table entries).Distinct := by
  obtain ⟨t, hfold, rfl⟩ := Option.map_eq_some_iff.1 h
  obtain ⟨hkeys, hvalues⟩ := (distinct_of_pairs (.empty .header) hpairs hfold).entries
  exact .table hkeys hvalues

/-- A value without any values inside. -/
def Value.IsScalar : Value → Prop
  | .array _ => False
  | .table _ => False
  | _ => True

theorem Value.IsScalar.distinct {value : Value} (h : value.IsScalar) : value.Distinct := by
  cases value with
  | array items => exact absurd h id
  | table entries => exact absurd h id
  | string text => exact .string text
  | integer i => exact .integer i
  | float x => exact .float x
  | boolean b => exact .boolean b
  | dateTime text => exact .dateTime text
  | unreadable => exact .unreadable

theorem isScalar_integerValue (base : Nat) (negative : Bool) (digits : List Char) :
    (integerValue base negative digits).IsScalar := by
  unfold integerValue
  dsimp only
  split <;> exact trivial

theorem isScalar_of_basedInteger? {base : Nat} {cs : List Char} {value : Value}
    (h : basedInteger? base cs = some value) : value.IsScalar := by
  unfold basedInteger? at h
  dsimp only at h
  split at h
  · obtain rfl := Option.some.inj h
    exact isScalar_integerValue _ _ _
  · cases h

theorem isScalar_of_integer? {cs : List Char} {value : Value} (h : integer? cs = some value) :
    value.IsScalar := by
  unfold integer? at h
  split at h
  · exact isScalar_of_basedInteger? h
  · exact isScalar_of_basedInteger? h
  · exact isScalar_of_basedInteger? h
  · dsimp only at h
    split at h
    · obtain rfl := Option.some.inj h
      exact isScalar_integerValue _ _ _
    · cases h

theorem isScalar_of_float? {cs : List Char} {value : Value} (h : float? cs = some value) :
    value.IsScalar := by
  unfold float? at h
  dsimp only at h
  split at h
  · obtain rfl := Option.some.inj h
    exact trivial
  · obtain rfl := Option.some.inj h
    exact trivial
  · split at h
    · obtain ⟨d, -, hvalue⟩ := Option.map_eq_some_iff.1 h
      rw [← hvalue]
      split <;> exact trivial
    · cases h

theorem isScalar_of_scalar? {cs : List Char} {value : Value} (h : scalar? cs = some value) :
    value.IsScalar := by
  unfold scalar? at h
  split at h
  · obtain rfl := Option.some.inj h
    exact trivial
  · split at h
    · obtain rfl := Option.some.inj h
      exact trivial
    · split at h
      · obtain rfl := Option.some.inj h
        exact trivial
      · cases hinteger : integer? cs with
        | some read =>
            rw [hinteger] at h
            obtain rfl := Option.some.inj h
            exact isScalar_of_integer? hinteger
        | none =>
            rw [hinteger] at h
            exact isScalar_of_float? h

/-- The readers of values return no table with a repeated key. -/
structure ReadsDistinct (fuel : Nat) : Prop where
  value : ∀ depth cs value rest, value? fuel depth cs = some (value, rest) → value.Distinct
  items : ∀ depth cs items rest, items? fuel depth cs = some (items, rest) →
    ∀ item ∈ items, item.Distinct
  pairs : ∀ depth cs pairs rest, pairs? fuel depth cs = some (pairs, rest) →
    ∀ pair ∈ pairs, pair.2.Distinct

namespace ReadsDistinct

variable {fuel depth : Nat} {cs rest : List Char}

theorem value_succ (ih : ReadsDistinct fuel) {value : Value}
    (h : value? (fuel + 1) depth cs = some (value, rest)) : value.Distinct := by
  unfold value? at h
  split at h
  · split at h
    · cases h
    · obtain ⟨⟨items, after⟩, hitems, hvalue⟩ := Option.bind_eq_some_iff.1 h
      obtain ⟨rfl, -⟩ := Prod.mk.inj (Option.some.inj hvalue)
      exact .array (ih.items _ _ _ _ hitems)
  · split at h
    · cases h
    · obtain ⟨⟨pairs, after⟩, hpairs, h⟩ := Option.bind_eq_some_iff.1 h
      obtain ⟨entries, hentries, hvalue⟩ := Option.bind_eq_some_iff.1 h
      obtain ⟨rfl, -⟩ := Prod.mk.inj (Option.some.inj hvalue)
      exact distinct_of_entriesOf? (ih.pairs _ _ _ _ hpairs) hentries
  · split at h
    · obtain ⟨rfl, -⟩ := Prod.mk.inj (Option.some.inj h)
      exact .string _
    · obtain ⟨scalar, hscalar, hvalue⟩ := Option.bind_eq_some_iff.1 h
      obtain ⟨rfl, -⟩ := Prod.mk.inj (Option.some.inj hvalue)
      exact (isScalar_of_scalar? hscalar).distinct

theorem items_succ (ih : ReadsDistinct fuel) {items : List Value}
    (h : items? (fuel + 1) depth cs = some (items, rest)) : ∀ item ∈ items, item.Distinct := by
  unfold items? at h
  obtain ⟨start, -, h⟩ := Option.bind_eq_some_iff.1 h
  split at h
  · obtain ⟨rfl, -⟩ := Prod.mk.inj (Option.some.inj h)
    exact fun _ hitem => absurd hitem List.not_mem_nil
  · obtain ⟨⟨first, after⟩, hfirst, h⟩ := Option.bind_eq_some_iff.1 h
    have hdistinct := ih.value _ _ _ _ hfirst
    obtain ⟨next, -, h⟩ := Option.bind_eq_some_iff.1 h
    split at h
    · obtain ⟨⟨others, last⟩, hothers, hitems⟩ := Option.bind_eq_some_iff.1 h
      obtain ⟨rfl, -⟩ := Prod.mk.inj (Option.some.inj hitems)
      exact List.forall_mem_cons.2 ⟨hdistinct, ih.items _ _ _ _ hothers⟩
    · obtain ⟨rfl, -⟩ := Prod.mk.inj (Option.some.inj h)
      exact List.forall_mem_singleton.2 hdistinct
    · cases h

theorem pairs_succ (ih : ReadsDistinct fuel) {pairs : List (List String × Value)}
    (h : pairs? (fuel + 1) depth cs = some (pairs, rest)) :
    ∀ pair ∈ pairs, pair.2.Distinct := by
  unfold pairs? at h
  obtain ⟨start, -, h⟩ := Option.bind_eq_some_iff.1 h
  split at h
  · obtain ⟨rfl, -⟩ := Prod.mk.inj (Option.some.inj h)
    exact fun _ hpair => absurd hpair List.not_mem_nil
  · obtain ⟨⟨path, sign⟩, -, h⟩ := Option.bind_eq_some_iff.1 h
    obtain ⟨blank, -, h⟩ := Option.bind_eq_some_iff.1 h
    obtain ⟨⟨first, after⟩, hread, h⟩ := Option.bind_eq_some_iff.1 h
    obtain ⟨body, -, hfirst⟩ := Option.bind_eq_some_iff.1 hread
    have hdistinct := ih.value _ _ _ _ hfirst
    obtain ⟨next, -, h⟩ := Option.bind_eq_some_iff.1 h
    split at h
    · obtain ⟨⟨others, last⟩, hothers, hpairs⟩ := Option.bind_eq_some_iff.1 h
      obtain ⟨rfl, -⟩ := Prod.mk.inj (Option.some.inj hpairs)
      exact List.forall_mem_cons.2 ⟨hdistinct, ih.pairs _ _ _ _ hothers⟩
    · obtain ⟨rfl, -⟩ := Prod.mk.inj (Option.some.inj h)
      exact List.forall_mem_singleton.2 hdistinct
    · cases h

end ReadsDistinct

/-- The three readers call each other with less fuel. -/
theorem readsDistinct (fuel : Nat) : ReadsDistinct fuel := by
  induction fuel with
  | zero => exact ⟨nofun, nofun, nofun⟩
  | succ fuel ih =>
      exact ⟨fun _ _ _ _ => ih.value_succ, fun _ _ _ _ => ih.items_succ,
        fun _ _ _ _ => ih.pairs_succ⟩

/-- The values of an expression. -/
def Expression.Distinct : Expression → Prop
  | .assignment _ value => value.Distinct
  | _ => True

theorem distinct_of_expression? {cs rest : List Char} {expression : Expression}
    (h : expression? cs = some (expression, rest)) : expression.Distinct := by
  unfold expression? at h
  split at h
  · obtain ⟨⟨path, after⟩, -, h⟩ := Option.bind_eq_some_iff.1 h
    obtain ⟨last, -, hheader⟩ := Option.bind_eq_some_iff.1 h
    obtain ⟨rfl, -⟩ := Prod.mk.inj (Option.some.inj hheader)
    exact trivial
  · obtain ⟨⟨path, after⟩, -, h⟩ := Option.bind_eq_some_iff.1 h
    obtain ⟨last, -, hheader⟩ := Option.bind_eq_some_iff.1 h
    obtain ⟨rfl, -⟩ := Prod.mk.inj (Option.some.inj hheader)
    exact trivial
  · obtain ⟨⟨path, sign⟩, -, h⟩ := Option.bind_eq_some_iff.1 h
    obtain ⟨blank, -, h⟩ := Option.bind_eq_some_iff.1 h
    obtain ⟨⟨value, after⟩, hvalue, hassignment⟩ := Option.bind_eq_some_iff.1 h
    obtain ⟨rfl, -⟩ := Prod.mk.inj (Option.some.inj hassignment)
    exact (readsDistinct _).value _ _ _ _ hvalue

theorem distinct_of_expressions? {fuel : Nat} {cs : List Char} {expressions : List Expression}
    (h : expressions? fuel cs = some expressions) : ∀ e ∈ expressions, e.Distinct := by
  induction fuel generalizing cs expressions with
  | zero => cases h
  | succ fuel ih =>
      unfold expressions? at h
      split at h
      · obtain rfl := Option.some.inj h
        exact fun _ he => absurd he List.not_mem_nil
      · split at h
        · obtain ⟨rest, -, hrest⟩ := Option.bind_eq_some_iff.1 h
          exact ih hrest
        · obtain ⟨⟨first, after⟩, hfirst, h⟩ := Option.bind_eq_some_iff.1 h
          obtain ⟨next, -, h⟩ := Option.bind_eq_some_iff.1 h
          obtain ⟨others, hothers, hall⟩ := Option.bind_eq_some_iff.1 h
          obtain rfl := Option.some.inj hall
          exact List.forall_mem_cons.2 ⟨distinct_of_expression? hfirst, ih hothers⟩

/-- One expression more. -/
theorem Table.Distinct.extend {d d' : Draft} {expression : Expression}
    (h : d.root.Distinct) (hexpression : expression.Distinct)
    (hextend : d.extend expression = some d') : d'.root.Distinct := by
  cases expression with
  | header path =>
      obtain ⟨t, hdefine, rfl⟩ := Option.map_eq_some_iff.1 hextend
      exact h.define hdefine
  | rowHeader path =>
      obtain ⟨t, hdefine, rfl⟩ := Option.map_eq_some_iff.1 hextend
      exact h.defineRow hdefine
  | assignment path value =>
      obtain ⟨t, hmodify, rfl⟩ := Option.map_eq_some_iff.1 hextend
      exact h.modify (fun u u' hu hassign => hu.assign hexpression hassign) hmodify

theorem Table.Distinct.extendAll {expressions : List Expression} {d d' : Draft}
    (h : d.root.Distinct) (hexpressions : ∀ e ∈ expressions, e.Distinct)
    (hfold : expressions.foldlM Draft.extend d = some d') : d'.root.Distinct := by
  induction expressions generalizing d with
  | nil =>
      obtain rfl := Option.some.inj hfold
      exact h
  | cons expression expressions ih =>
      rw [List.forall_mem_cons] at hexpressions
      rw [List.foldlM_cons] at hfold
      obtain ⟨next, hextend, hrest⟩ := Option.bind_eq_some_iff.1 hfold
      exact ih (h.extend hexpressions.1 hextend) hexpressions.2 hrest

/-- The entries of a document. -/
theorem distinct_of_ofBytes {bytes : ByteArray} {entries : Entries}
    (h : ofBytes bytes = .ok entries) : (Value.table entries).Distinct := by
  unfold ofBytes at h
  split at h
  · unfold ofText at h
    dsimp only at h
    split at h
    · rename_i expressions hexpressions
      unfold entriesOfExpressions at h
      split at h
      · rename_i draft hdraft
        obtain rfl := Except.ok.inj h
        have hroot : draft.root.Distinct := Table.Distinct.extendAll (.empty .header)
          (distinct_of_expressions? hexpressions) hdraft
        exact .table hroot.entries.1 hroot.entries.2
      · cases h
    · cases h
  · cases h

end Toml
end MotorSupervisor
