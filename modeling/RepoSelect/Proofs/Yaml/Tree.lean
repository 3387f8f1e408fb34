import RepoSelect.Proofs.Yaml.Text
import RepoSelect.Yaml.Node.Parser

/-!
# Tokens are read back as the tree of their value

The descent over the tokens of a value gives the tree of the value (`Value.toNode`) and stops behind
them (`parses_value`). Its fuel bounds how deep it goes: four levels for each token are enough.
With the scan of the text (`Scan.scan_entries`), **a table is read back from its text**
(`read_table`).
-/

namespace RepoSelect.Yaml

open Printer (form isSimpleKey)

mutual

/-- The tree of a value. -/
def Value.toNode : Value → Node
  | .null => .scalar none "null" .plain
  | .bool b => .scalar none (toString b) .plain
  | .text s => .scalar none s (form false s).style
  | .list vs => .sequence none (itemNodes vs)
  | .table es => .mapping none (entryNodes es)

def itemNodes : List Value → List Node
  | [] => []
  | v :: vs => v.toNode :: itemNodes vs

def entryNodes : List (String × Value) → List (Node × Node)
  | [] => []
  | (k, v) :: es => (.scalar none k (keyStyle k), v.toNode) :: entryNodes es

end

namespace Descent

variable {d : Descent} {rest : List Token} {fuel : Nat} {block indentless : Bool}

/-- The descent with other tokens ahead. -/
def ahead (d : Descent) (tokens : List Token) : Descent := { d with tokens }

@[simp] theorem ahead_tokens (tokens : List Token) : (d.ahead tokens).tokens = tokens := rfl

@[simp] theorem ahead_skip (t : Token) (rest : List Token) :
    (d.ahead (t :: rest)).skip = d.ahead rest := rfl

@[simp] theorem ahead_peek? (tokens : List Token) : (d.ahead tokens).peek? = tokens.head? := rfl

/-! ## Nodes by their first token -/

theorem node_scalar (text : String) (style : ScalarStyle) :
    node (fuel + 1) block indentless (d.ahead (.scalar text style :: rest))
      = .ok (.scalar none text style, d.ahead rest) := by
  simp [node, properties, enter, leave, bind, Except.bind]

theorem node_blockSequence : node (fuel + 1) true indentless (d.ahead (.blockSequenceStart :: rest))
    = (blockItems fuel (d.ahead rest)).map fun r => (.sequence none r.1, r.2) := by
  simp [node, properties, enter, leave, bind, Except.bind]

theorem node_blockMapping : node (fuel + 1) true indentless (d.ahead (.blockMappingStart :: rest))
    = (blockEntries fuel (d.ahead rest)).map fun r => (.mapping none r.1, r.2) := by
  simp [node, properties, enter, leave, bind, Except.bind]

theorem node_indentless : node (fuel + 1) block true (d.ahead (.blockEntry :: rest))
    = (indentlessItems fuel (d.ahead (.blockEntry :: rest))).map fun r =>
        (.sequence none r.1, r.2) := by
  simp [node, properties, enter, leave, bind, Except.bind]

theorem node_flowSequence : node (fuel + 2) block indentless
    (d.ahead (.flowSequenceStart :: .flowSequenceEnd :: rest))
      = .ok (.sequence none [], d.ahead rest) := by
  simp [node, flowItems, properties, enter, leave, bind, Except.bind, Except.map]

theorem node_flowMapping : node (fuel + 2) block indentless
    (d.ahead (.flowMappingStart :: .flowMappingEnd :: rest))
      = .ok (.mapping none [], d.ahead rest) := by
  simp [node, flowEntries, properties, enter, leave, bind, Except.bind, Except.map]

/-! ## Values, items and entries -/

/-- The tokens of a value are read as its tree. Behind a sequence without indentation of its own no
further item may follow. -/
def ParsesValue (v : Value) : Prop :=
  ∀ {d : Descent} {rest : List Token} {fuel : Nat} {indentless allowed : Bool},
    (indentless = true → allowed = true ∧ rest.head? ≠ some .blockEntry) →
    4 * (v.tokens indentless).length + 2 ≤ fuel →
    node fuel true allowed (d.ahead (v.tokens indentless ++ rest)) = .ok (v.toNode, d.ahead rest)

def ParsesItems (vs : List Value) : Prop :=
  ∀ {d : Descent} {rest : List Token} {fuel : Nat}, 4 * (itemTokens vs).length + 1 ≤ fuel →
    blockItems fuel (d.ahead (itemTokens vs ++ .blockEnd :: rest))
        = .ok (itemNodes vs, d.ahead rest)
      ∧ (rest.head? ≠ some .blockEntry →
        indentlessItems fuel (d.ahead (itemTokens vs ++ rest)) = .ok (itemNodes vs, d.ahead rest))

def ParsesEntries (es : List (String × Value)) : Prop :=
  ∀ {d : Descent} {rest : List Token} {fuel : Nat}, 4 * (entryTokens es).length + 1 ≤ fuel →
    blockEntries fuel (d.ahead (entryTokens es ++ .blockEnd :: rest))
      = .ok (entryNodes es, d.ahead rest)

/-- No value starts with a token that shows that a value is missing. -/
theorem exists_head_tokens (v : Value) (indentless : Bool) :
    ∃ t ts, v.tokens indentless = t :: ts ∧ blockEnds t = false
      ∧ (indentless = false → sequenceEnds t = false ∧ indentlessEnds t = false) := by
  match v with
  | .null | .bool b | .text s | .list [] | .table [] | .table ((k, v) :: es) =>
    exact ⟨_, _, rfl, rfl, fun _ => ⟨rfl, rfl⟩⟩
  | .list (v :: vs) =>
    cases indentless with
    | true => exact ⟨_, _, rfl, rfl, nofun⟩
    | false => exact ⟨_, _, rfl, rfl, fun _ => ⟨rfl, rfl⟩⟩

theorem nodeOrEmpty_value {v : Value} (hv : ParsesValue v) {ends : Token → Bool} {allowed : Bool}
    (hallowed : indentless = true → allowed = true ∧ rest.head? ≠ some .blockEntry)
    (hends : ∀ t ts, v.tokens indentless = t :: ts → ends t = false)
    (hfuel : 4 * (v.tokens indentless).length + 3 ≤ fuel) :
    nodeOrEmpty fuel ends true allowed (d.ahead (v.tokens indentless ++ rest))
      = .ok (v.toNode, d.ahead rest) := by
  obtain ⟨fuel, rfl⟩ : ∃ k, fuel = k + 1 := ⟨fuel - 1, by omega⟩
  obtain ⟨t, ts, htokens, -⟩ := exists_head_tokens v indentless
  have hpresent : (d.ahead (v.tokens indentless ++ rest)).endsAt ends = false := by
    rw [endsAt, ahead_peek?, htokens]
    exact hends t ts htokens
  rw [nodeOrEmpty, hpresent]
  exact hv hallowed (by omega)

theorem parsesItems_nil : ParsesItems [] := by
  intro d rest fuel hfuel
  obtain ⟨fuel, rfl⟩ : ∃ k, fuel = k + 1 := ⟨fuel - 1, by omega⟩
  refine ⟨by simp [itemTokens, blockItems, itemNodes], fun hrest => ?_⟩
  simp only [itemTokens, List.nil_append, indentlessItems, ahead_peek?]
  rfl

theorem parsesItems_cons {v : Value} {vs : List Value} (hv : ParsesValue v)
    (hvs : ParsesItems vs) : ParsesItems (v :: vs) := by
  intro d rest fuel hfuel
  obtain ⟨fuel, rfl⟩ : ∃ k, fuel = k + 1 := ⟨fuel - 1, by omega⟩
  simp only [itemTokens, List.length_cons, List.length_append] at hfuel
  obtain ⟨t, ts, htokens, -, hhead⟩ := exists_head_tokens v false
  obtain ⟨hsequence, hindentless⟩ := hhead rfl
  have hitem : ∀ {ends : Token → Bool}, ends t = false → ∀ rest : List Token,
      nodeOrEmpty fuel ends true false (d.ahead (v.tokens false ++ rest))
        = .ok (v.toNode, d.ahead rest) := by
    intro ends hends rest
    refine nodeOrEmpty_value hv (fun hempty => absurd hempty (by decide)) (fun t' ts' h => ?_)
      (by omega)
    obtain ⟨rfl, -⟩ := List.cons.inj (htokens.symm.trans h)
    exact hends
  have hfuel' : 4 * (itemTokens vs).length + 1 ≤ fuel := by omega
  constructor
  · simp only [itemTokens, List.cons_append, List.append_assoc, blockItems, ahead_peek?,
      List.head?_cons, ahead_skip, hitem hsequence, (hvs hfuel').1, bind, Except.bind, itemNodes]
  · intro hrest
    simp only [itemTokens, List.cons_append, List.append_assoc, indentlessItems, ahead_peek?,
      List.head?_cons, ahead_skip, hitem hindentless, (hvs hfuel').2 hrest, bind, Except.bind,
      itemNodes]

theorem parsesEntries_nil : ParsesEntries [] := by
  intro d rest fuel hfuel
  obtain ⟨fuel, rfl⟩ : ∃ k, fuel = k + 1 := ⟨fuel - 1, by omega⟩
  simp [entryTokens, blockEntries, entryNodes]

theorem parsesEntries_cons {k : String} {v : Value} {es : List (String × Value)}
    (hv : ParsesValue v) (hes : ParsesEntries es) : ParsesEntries ((k, v) :: es) := by
  intro d rest fuel hfuel
  simp only [entryTokens, List.length_cons, List.length_append] at hfuel
  obtain ⟨fuel, rfl⟩ : ∃ n, fuel = n + 3 := ⟨fuel - 3, by omega⟩
  have hkey : ∀ rest : List Token, nodeOrEmpty (fuel + 2) blockEnds true true
      (d.ahead (.scalar k (keyStyle k) :: rest))
        = .ok (.scalar none k (keyStyle k), d.ahead rest) :=
    fun rest => node_scalar k (keyStyle k)
  have hnext : (entryTokens es ++ .blockEnd :: rest).head? ≠ some .blockEntry := by
    intro hentry
    cases es with
    | nil => cases hentry
    | cons e es => cases hentry
  have hvalue : nodeOrEmpty (fuel + 2) blockEnds true true
      (d.ahead (v.tokens (isSimpleKey k) ++ (entryTokens es ++ .blockEnd :: rest)))
      = .ok (v.toNode, d.ahead (entryTokens es ++ .blockEnd :: rest)) := by
    refine nodeOrEmpty_value hv (fun _ => ⟨rfl, hnext⟩) (fun t ts h => ?_) (by omega)
    obtain ⟨t', ts', htokens, hends, -⟩ := exists_head_tokens v (isSimpleKey k)
    obtain ⟨rfl, -⟩ := List.cons.inj (htokens.symm.trans h)
    exact hends
  have hrest : blockEntries (fuel + 2) (d.ahead (entryTokens es ++ .blockEnd :: rest))
      = .ok (entryNodes es, d.ahead rest) := hes (by omega)
  simp only [entryTokens, List.cons_append, List.append_assoc]
  rw [blockEntries]
  simp only [ahead_peek?, List.head?_cons, ahead_skip, hkey, hvalue, hrest, bind, Except.bind,
    if_true, entryNodes]

theorem parsesValue_list {v : Value} {vs : List Value} (h : ParsesItems (v :: vs)) :
    ParsesValue (.list (v :: vs)) := by
  intro d rest fuel indentless allowed hallowed hfuel
  obtain ⟨fuel, rfl⟩ : ∃ k, fuel = k + 1 := ⟨fuel - 1, by omega⟩
  cases indentless with
  | true =>
    obtain ⟨rfl, hrest⟩ := hallowed rfl
    have htokens : (Value.list (v :: vs)).tokens true = itemTokens (v :: vs) := rfl
    rw [htokens] at hfuel ⊢
    have henough : 4 * (itemTokens (v :: vs)).length + 1 ≤ fuel := by omega
    have hitems : indentlessItems fuel (d.ahead (itemTokens (v :: vs) ++ rest))
        = .ok (itemNodes (v :: vs), d.ahead rest) := (h henough).2 hrest
    exact node_indentless.trans (congrArg (Except.map _) hitems)
  | false =>
    have htokens : (Value.list (v :: vs)).tokens false
        = .blockSequenceStart :: (itemTokens (v :: vs) ++ [.blockEnd]) := rfl
    rw [htokens] at hfuel ⊢
    have henough : 4 * (itemTokens (v :: vs)).length + 1 ≤ fuel := by
      simp only [List.length_cons, List.length_append] at hfuel
      omega
    have hitems : blockItems fuel (d.ahead (itemTokens (v :: vs) ++ .blockEnd :: rest))
        = .ok (itemNodes (v :: vs), d.ahead rest) := (h henough).1
    rw [List.cons_append, List.append_assoc, List.singleton_append, node_blockSequence, hitems]
    rfl

theorem parsesValue_table {k : String} {v : Value} {es : List (String × Value)}
    (h : ParsesEntries ((k, v) :: es)) : ParsesValue (.table ((k, v) :: es)) := by
  intro d rest fuel indentless allowed _ hfuel
  obtain ⟨fuel, rfl⟩ : ∃ k, fuel = k + 1 := ⟨fuel - 1, by omega⟩
  have htokens : (Value.table ((k, v) :: es)).tokens indentless
      = .blockMappingStart :: (entryTokens ((k, v) :: es) ++ [.blockEnd]) := by
    simp [Value.tokens, entryTokens]
  rw [htokens] at hfuel ⊢
  have henough : 4 * (entryTokens ((k, v) :: es)).length + 1 ≤ fuel := by
    simp only [List.length_cons, List.length_append] at hfuel
    omega
  have hentries : blockEntries fuel (d.ahead (entryTokens ((k, v) :: es) ++ .blockEnd :: rest))
      = .ok (entryNodes ((k, v) :: es), d.ahead rest) := h henough
  rw [List.cons_append, List.append_assoc, List.singleton_append, node_blockMapping, hentries]
  rfl

theorem parsesValue_scalar {v : Value} {text : String} {style : ScalarStyle}
    (htokens : ∀ indentless, v.tokens indentless = [.scalar text style])
    (hnode : v.toNode = .scalar none text style) : ParsesValue v := by
  intro d rest fuel indentless allowed _ hfuel
  obtain ⟨fuel, rfl⟩ : ∃ k, fuel = k + 1 := ⟨fuel - 1, by omega⟩
  rw [htokens, hnode]
  exact node_scalar text style

theorem parsesValue_emptyList : ParsesValue (.list []) := by
  intro d rest fuel indentless allowed _ hfuel
  obtain ⟨fuel, rfl⟩ : ∃ k, fuel = k + 2 := ⟨fuel - 2, by omega⟩
  exact node_flowSequence

theorem parsesValue_emptyTable : ParsesValue (.table []) := by
  intro d rest fuel indentless allowed _ hfuel
  obtain ⟨fuel, rfl⟩ : ∃ k, fuel = k + 2 := ⟨fuel - 2, by omega⟩
  exact node_flowMapping

mutual

/-- **The tokens of a value are read back as its tree.** -/
theorem parses_value : ∀ v, ParsesValue v
  | .null => parsesValue_scalar (fun _ => rfl) rfl
  | .bool _ => parsesValue_scalar (fun _ => rfl) rfl
  | .text _ => parsesValue_scalar (fun _ => rfl) rfl
  | .list [] => parsesValue_emptyList
  | .table [] => parsesValue_emptyTable
  | .list (v :: vs) => parsesValue_list (parsesItems_cons (parses_value v) (parses_items vs))
  | .table ((_, v) :: es) =>
    parsesValue_table (parsesEntries_cons (parses_value v) (parses_entries es))

theorem parses_items : ∀ vs, ParsesItems vs
  | [] => parsesItems_nil
  | v :: vs => parsesItems_cons (parses_value v) (parses_items vs)

theorem parses_entries : ∀ es, ParsesEntries es
  | [] => parsesEntries_nil
  | (_, v) :: es => parsesEntries_cons (parses_value v) (parses_entries es)

end

end Descent

theorem scan_table (es : List (String × Value)) :
    Token.scan (Printer.table es).toList = .ok ((Value.table es).tokens false) := by
  cases es with
  | nil =>
    have htext : (Printer.table []).toList = ['\x7b', '\x7d', '\n'] := by decide
    have hsome : (Token.scan ['\x7b', '\x7d', '\n']).toOption
        = some [.flowMappingStart, .flowMappingEnd] := by decide
    rw [htext]
    cases hscan : Token.scan ['\x7b', '\x7d', '\n'] with
    | error message => simp [hscan, Except.toOption] at hsome
    | ok tokens =>
      rw [hscan] at hsome
      exact congrArg Except.ok (Option.some.inj hsome)
  | cons e es =>
    rw [Printer.table]
    · rw [String.toList_ofList]
      exact Scan.scan_entries e.1 e.2 es
    · exact nofun

/-- **A table is read back from its text.** -/
theorem read_table (es : List (String × Value)) :
    Graph.read (Printer.table es) = .ok ⟨some (Value.table es).toNode, []⟩ := by
  obtain ⟨t, ts, htokens, -⟩ := Descent.exists_head_tokens (.table es) false
  have hnone : false = true → false = true ∧ ([] : List Token).head? ≠ some .blockEntry := nofun
  have hparse : Descent.node (4 * ((Value.table es).tokens false).length + 4) true false
      { tokens := (Value.table es).tokens false, handles := Descent.defaultHandles }
      = .ok ((Value.table es).toNode, { tokens := [], handles := Descent.defaultHandles }) := by
    have hnode : Descent.node (4 * ((Value.table es).tokens false).length + 4) true false
        (Descent.ahead { tokens := [], handles := Descent.defaultHandles }
          ((Value.table es).tokens false ++ []))
        = .ok ((Value.table es).toNode, Descent.ahead
            { tokens := [], handles := Descent.defaultHandles } []) :=
      Descent.parses_value _ hnone (by omega)
    rwa [List.append_nil] at hnode
  have hdocument : Descent.document ((Value.table es).tokens false)
      = .ok ((Value.table es).toNode, { tokens := [], handles := Descent.defaultHandles }) := by
    rw [← hparse]
    cases es with
    | nil => rfl
    | cons e es => rfl
  have hpresent : (Value.table es).tokens false ≠ [] := by
    rw [htokens]
    exact List.cons_ne_nil t ts
  unfold Graph.read
  simp only [scan_table, hdocument, hpresent, if_false, bind, Except.bind, List.takeWhile_nil,
    List.drop_nil]

end RepoSelect.Yaml
