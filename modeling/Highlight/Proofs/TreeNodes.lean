import Highlight.Proofs.PathTree

/-!
# The nodes of a tree of paths

What a tree holds does not say which nodes it has: some are there for the sake of nodes below them, and
some are left from values that have been removed since. Placing a value makes nodes along its path.
Removing one prunes at most its own node. Nodes also carry the order in which values are listed, since
the keys at each node increase.

- `Tree.HasNode`, `Tree.HasBelow`: there is a node at a path, or below it.
- `Tree.hasNode_insert`, `Tree.hasNode_clear`, `Tree.Proper.hasNode_remove`: one equation for each
  operation.
- `Tree.Dotless`: no key of a node holds a dot, so that listed paths have the right parts.
- `Tree.listed`, `Tree.Proper.listFrom_eq`: the values with the parts of their paths.
- `Tree.Proper.mem_toList_iff`, `Tree.Proper.increasing_toList`: what is listed, and in which order.
-/

namespace Highlight

namespace Text

/-- Pieces of texts with a separator between them. -/
theorem pieces_append_sep (sep : Char) (front back : List Char) :
    pieces sep (front ++ sep :: back) = pieces sep front ++ pieces sep back := by
  induction front with
  | nil => simp [pieces]
  | cons c front ih =>
    by_cases hc : c = sep
    · rw [List.cons_append, pieces, if_pos hc, ih, pieces, if_pos hc]
      rfl
    · obtain ⟨p, ps, hp⟩ := List.exists_cons_of_ne_nil (pieces_ne_nil sep front)
      rw [List.cons_append, pieces, if_neg hc, ih, pieces, if_neg hc, hp]
      rfl

theorem not_mem_of_mem_pieces {sep : Char} {cs p : List Char} (h : p ∈ pieces sep cs) : sep ∉ p := by
  induction cs generalizing p with
  | nil =>
    rw [List.mem_singleton.1 h]
    exact List.not_mem_nil
  | cons c cs ih =>
    by_cases hc : c = sep
    · rw [pieces, if_pos hc] at h
      rcases List.mem_cons.1 h with rfl | h
      · exact List.not_mem_nil
      · exact ih h
    · obtain ⟨q, qs, hq⟩ := List.exists_cons_of_ne_nil (pieces_ne_nil sep cs)
      rw [pieces, if_neg hc, hq] at h
      rw [hq] at ih
      rcases List.mem_cons.1 h with rfl | h
      · intro hmem
        rcases List.mem_cons.1 hmem with heq | hmem
        · exact hc heq.symm
        · exact ih List.mem_cons_self hmem
      · exact ih (List.mem_cons_of_mem _ h)

end Text

/-! ## Parts of paths -/

/-- A path below another one has the parts of both. -/
theorem segments_below (path rest : String) :
    segments (path ++ "." ++ rest) = segments path ++ segments rest := by
  unfold segments
  rw [← List.map_append, ← Text.pieces_append_sep]
  simp

theorem dot_not_mem_segments {path s : String} (h : s ∈ segments path) : '.' ∉ s.toList := by
  obtain ⟨p, hp, rfl⟩ := List.mem_map.1 h
  rw [String.toList_ofList]
  exact Text.not_mem_of_mem_pieces hp

/-- Parts without dots are the parts of a path. -/
theorem segments_joined {parts : List String} (hne : parts ≠ [])
    (h : ∀ s ∈ parts, '.' ∉ s.toList) :
    segments (String.ofList (Text.joined '.' (parts.map String.toList))) = parts := by
  have hpieces : ∀ p ∈ parts.map String.toList, '.' ∉ p := by
    intro p hp
    obtain ⟨s, hs, rfl⟩ := List.mem_map.1 hp
    exact h s hs
  have hmap : parts.map String.toList ≠ [] := fun hnil => hne (List.map_eq_nil_iff.1 hnil)
  rw [segments, String.toList_ofList, Text.pieces_joined hmap hpieces, List.map_map]
  simp [Function.comp_def]

namespace Tree

variable {α : Type} {t t' : Tree α} {path other : List String} {s : String} {rest : List String}
  {value : α}

/-! ## Nodes -/

/-- There is a node at a path, with a value or without. -/
def HasNode (t : Tree α) (path : List String) : Prop := (t.node? path).isSome

/-- There is a node below a path. -/
def HasBelow (t : Tree α) (path : List String) : Prop := ∃ s rest, t.HasNode (path ++ s :: rest)

theorem hasNode_nil (t : Tree α) : t.HasNode [] := rfl

theorem hasNode_cons : t.HasNode (s :: rest) ↔
    ∃ child, Entries.get? s t.children = some child ∧ child.HasNode rest := by
  unfold HasNode
  rw [node?]
  cases Entries.get? s t.children with
  | none => simp
  | some child => simp

/-- Only the children count. -/
theorem hasNode_withValue (own : Option α) :
    HasNode ⟨own, t.children⟩ (s :: rest) ↔ t.HasNode (s :: rest) := by
  rw [hasNode_cons, hasNode_cons]

theorem not_hasNode_of_leaf (hleaf : t.children = []) : ¬ t.HasNode (s :: rest) := by
  rw [hasNode_cons, hleaf]
  rintro ⟨child, hchild, -⟩
  cases hchild

theorem hasBelow_cons : t.HasBelow (s :: rest) ↔
    ∃ child, Entries.get? s t.children = some child ∧ child.HasBelow rest := by
  unfold HasBelow
  simp only [List.cons_append, hasNode_cons]
  constructor
  · rintro ⟨s', rest', child, hchild, hnode⟩
    exact ⟨child, hchild, s', rest', hnode⟩
  · rintro ⟨child, hchild, s', rest', hnode⟩
    exact ⟨s', rest', child, hchild, hnode⟩

theorem hasBelow_nil : t.HasBelow [] ↔ t.children ≠ [] := by
  constructor
  · rintro ⟨s, rest, hnode⟩ hleaf
    exact not_hasNode_of_leaf hleaf hnode
  · intro hne
    obtain ⟨⟨s, child⟩, others, hchildren⟩ := List.exists_cons_of_ne_nil hne
    refine ⟨s, [], hasNode_cons.2 ⟨child, ?_, hasNode_nil child⟩⟩
    rw [hchildren, Entries.get?, if_pos rfl]

/-- There are nodes along the way to a node. -/
theorem HasNode.along (h : t.HasNode other) (hway : path <+: other) : t.HasNode path := by
  induction path generalizing t other with
  | nil => exact hasNode_nil t
  | cons s rest ih =>
    obtain ⟨more, rfl⟩ := hway
    obtain ⟨child, hchild, hrest⟩ := hasNode_cons.1 h
    exact hasNode_cons.2 ⟨child, hchild, ih hrest (List.prefix_append rest more)⟩

theorem hasNode_of_get? (h : t.get? path = some value) : t.HasNode path := by
  obtain ⟨node, hnode, -⟩ := Option.bind_eq_some_iff.1 h
  exact Option.isSome_of_eq_some hnode

/-! ## One equation for each operation -/

/-- Nodes below a key for which a child was put. -/
theorem hasNode_put (child : Tree α) (own : Option α) (s' : String) :
    HasNode ⟨own, Entries.put s child t.children⟩ (s' :: rest) ↔
      if s' = s then child.HasNode rest else t.HasNode (s' :: rest) := by
  rw [hasNode_cons]
  split
  · rename_i heq
    rw [heq, Entries.get?_put_self]
    simp
  · rename_i hne
    rw [Entries.get?_put_other hne, hasNode_cons]

/-- **Placing a value makes the nodes along its path**, and no others. -/
theorem hasNode_insert :
    (t.insert value path).HasNode other ↔ other <+: path ∨ t.HasNode other := by
  induction path generalizing t other with
  | nil =>
    cases other with
    | nil => exact iff_of_true (hasNode_nil _) (.inr (hasNode_nil t))
    | cons s rest => rw [insert, hasNode_withValue]; simp
  | cons s rest ih =>
    cases other with
    | nil => exact iff_of_true (hasNode_nil _) (.inr (hasNode_nil t))
    | cons s' rest' =>
      rw [insert, hasNode_put]
      split
      · rename_i heq
        subst heq
        rw [ih, List.cons_prefix_cons, hasNode_cons]
        cases Entries.get? s' t.children with
        | none =>
          -- a child that is new has no node but its own, which lies on every path
          cases rest' with
          | nil => simp
          | cons s'' rest'' => simp [not_hasNode_of_leaf (t := empty) rfl]
        | some child => simp
      · rename_i hne
        rw [List.cons_prefix_cons]
        simp [hne]

/-- Taking the value out of a node leaves all nodes. -/
theorem hasNode_clear : (t.clear path).HasNode other ↔ t.HasNode other := by
  induction path generalizing t other with
  | nil =>
    cases other with
    | nil => exact iff_of_true (hasNode_nil _) (hasNode_nil t)
    | cons s rest => rw [clear, hasNode_withValue]
  | cons s rest ih =>
    rw [clear]
    cases hchild : Entries.get? s t.children with
    | none => rfl
    | some child =>
      cases other with
      | nil => exact iff_of_true (hasNode_nil _) (hasNode_nil t)
      | cons s' rest' =>
        simp only
        rw [hasNode_put]
        split
        · rename_i heq
          rw [ih, heq, hasNode_cons, hchild]
          simp
        · rfl

/-- A value can be removed from wherever it is, the root apart. -/
theorem exists_remove? (h : t.get? (s :: rest) = some value) :
    ∃ t', t.remove? (s :: rest) = some t' := by
  induction rest generalizing t s with
  | nil =>
    rw [get?_cons] at h
    obtain ⟨child, hchild, hvalue⟩ := Option.bind_eq_some_iff.1 h
    have hown : child.value = some value := hvalue
    rw [remove?, hchild]
    simp only [hown]
    split
    · exact ⟨_, rfl⟩
    · exact ⟨_, rfl⟩
  | cons s' rest ih =>
    rw [get?_cons] at h
    obtain ⟨child, hchild, hrest⟩ := Option.bind_eq_some_iff.1 h
    obtain ⟨child', hremove⟩ := ih hrest
    rw [remove?, hchild]
    · simp only [hremove]
      exact ⟨_, rfl⟩
    · exact List.cons_ne_nil s' rest

/-- Nodes of a tree whose child has lost at most the node at a path. -/
theorem hasNode_replace {child child' : Tree α} (hget : Entries.get? s t.children = some child)
    (hsame : ∀ other, child'.HasNode other ↔
      child.HasNode other ∧ (other = rest → child.HasBelow rest)) (other : List String) :
    HasNode ⟨t.value, Entries.put s child' t.children⟩ other ↔
      t.HasNode other ∧ (other = s :: rest → t.HasBelow (s :: rest)) := by
  cases other with
  | nil =>
    exact iff_of_true (hasNode_nil _)
      ⟨hasNode_nil t, fun hnil => absurd hnil.symm (List.cons_ne_nil s rest)⟩
  | cons s' rest' =>
    rw [hasNode_put]
    by_cases heq : s' = s
    · subst heq
      rw [if_pos rfl, hsame, hasNode_cons, hasBelow_cons, hget]
      simp
    · rw [if_neg heq]
      simp [heq]

/-- **Removing a value prunes its node if there is none below it**, and leaves all other nodes. -/
theorem Proper.hasNode_remove (h : Proper t) (hremove : t.remove? path = some t')
    (other : List String) :
    t'.HasNode other ↔ t.HasNode other ∧ (other = path → t.HasBelow path) := by
  induction path generalizing t t' other with
  | nil => cases hremove
  | cons s rest ih =>
    cases rest with
    | nil =>
      rw [remove?] at hremove
      split at hremove
      · cases hremove
      · rename_i child hget
        split at hremove
        · cases hremove
        · split at hremove
          · rename_i hempty
            cases hremove
            have hleaf := List.isEmpty_iff.1 hempty
            cases other with
            | nil =>
              exact iff_of_true (hasNode_nil _)
                ⟨hasNode_nil t, fun hnil => absurd hnil.symm (List.cons_ne_nil s [])⟩
            | cons s' rest' =>
              rw [hasNode_cons, hasNode_cons, hasBelow_cons]
              by_cases heq : s' = s
              · subst heq
                rw [h.increasing.get?_erase_self, hget]
                -- the node itself is gone, and below it there was none
                cases rest' with
                | nil => simp [hasBelow_nil, hleaf]
                | cons s'' rest'' => simp [not_hasNode_of_leaf hleaf]
              · rw [Entries.get?_erase_other heq]
                simp [heq]
          · rename_i hempty
            cases hremove
            have hbelow : child.HasBelow [] :=
              hasBelow_nil.2 fun hleaf => hempty (List.isEmpty_iff.2 hleaf)
            refine hasNode_replace hget (fun other => ?_) other
            cases other with
            | nil => exact iff_of_true (hasNode_nil _) ⟨hasNode_nil _, fun _ => hbelow⟩
            | cons s' rest' => rw [hasNode_withValue]; simp
    | cons s' rest =>
      rw [remove?] at hremove
      · split at hremove
        · cases hremove
        · rename_i child hget
          split at hremove
          · cases hremove
          · rename_i child' hchild'
            cases hremove
            exact hasNode_replace hget (ih (h.child hget).2 hchild') other
      · exact List.cons_ne_nil s' rest

/-! ## The order of the values -/

/-- The keys on the way to every node are without dots. -/
def Dotless (t : Tree α) : Prop := ∀ path, t.HasNode path → ∀ s ∈ path, '.' ∉ s.toList

mutual

/-- The values below a node with the parts of their paths, in the order in which they are listed. -/
def listed : Tree α → List (List String × α)
  | ⟨_, children⟩ => listedIn children
termination_by structural t => t

/-- The values at and below the entries of a node. -/
def listedIn : List (String × Tree α) → List (List String × α)
  | [] => []
  | (s, child) :: rest =>
    child.value.toList.map ([s], ·) ++ (listed child).map (fun e => (s :: e.1, e.2)) ++ listedIn rest
termination_by structural entries => entries

end

/-- The values at and below one entry of a node. -/
def listedAt (entry : String × Tree α) : List (List String × α) :=
  entry.2.value.toList.map ([entry.1], ·) ++
    (listed entry.2).map fun e => (entry.1 :: e.1, e.2)

theorem listedIn_eq_flatMap (entries : List (String × Tree α)) :
    listedIn entries = entries.flatMap listedAt := by
  induction entries with
  | nil => rfl
  | cons entry entries ih =>
    rw [listedIn, ih]
    rfl

/-- The listed paths are put together from their parts. -/
theorem Proper.listFrom_eq (h : Proper t) (path : String) :
    listFrom path t = (listed t).map fun e => (pathBelow path e.1, e.2) := by
  induction h generalizing path with
  | @node _ children _ _ _ ih =>
    have hentries : ∀ entries ⊆ children, listEntries path entries =
        (listedIn entries).map fun e => (pathBelow path e.1, e.2) := by
      intro entries
      induction entries with
      | nil => exact fun _ => rfl
      | cons entry entries ihentries =>
        intro hsubset
        have hchild := ih entry (hsubset List.mem_cons_self)
        have hrest := ihentries fun e he => hsubset (List.mem_cons_of_mem _ he)
        rw [listEntries, listedIn, hrest]
        simp only [hchild, List.map_append, List.map_map]
        rfl
    rw [listFrom, listed]
    exact hentries children fun _ he => he

theorem mem_listedAt {child : Tree α} {e : List String × α}
    (hchild : ∀ e, e ∈ listed child ↔ e.1 ≠ [] ∧ child.get? e.1 = some e.2) :
    e ∈ listedAt (s, child) ↔ ∃ rest, e.1 = s :: rest ∧ child.get? rest = some e.2 := by
  obtain ⟨path, value⟩ := e
  unfold listedAt
  rw [List.mem_append, List.mem_map, List.mem_map]
  constructor
  · rintro (⟨own, hown, heq⟩ | ⟨below, hbelow, heq⟩)
    · cases heq
      exact ⟨[], rfl, Option.mem_toList.1 hown⟩
    · cases heq
      exact ⟨below.1, rfl, ((hchild below).1 hbelow).2⟩
  · rintro ⟨rest, hpath, hget⟩
    cases hpath
    cases rest with
    | nil => exact .inl ⟨value, Option.mem_toList.2 hget, rfl⟩
    | cons s' rest => exact .inr ⟨(s' :: rest, value), (hchild _).2 ⟨List.cons_ne_nil _ _, hget⟩, rfl⟩

/-- The values below a node are listed, and nothing else. -/
theorem Proper.mem_listed (h : Proper t) (e : List String × α) :
    e ∈ listed t ↔ e.1 ≠ [] ∧ t.get? e.1 = some e.2 := by
  induction h generalizing e with
  | @node own children hincreasing _ _ ih =>
    rw [listed, listedIn_eq_flatMap, List.mem_flatMap]
    constructor
    · rintro ⟨⟨s, child⟩, hmem, he⟩
      obtain ⟨rest, hpath, hget⟩ := (mem_listedAt (ih (s, child) hmem)).1 he
      rw [hpath, get?_cons, hincreasing.get?_of_mem hmem]
      exact ⟨List.cons_ne_nil s rest, hget⟩
    · rintro ⟨hne, hget⟩
      obtain ⟨s, rest, hpath⟩ := List.exists_cons_of_ne_nil hne
      rw [hpath, get?_cons] at hget
      obtain ⟨child, hchild, hrest⟩ := Option.bind_eq_some_iff.1 hget
      have hmem := Entries.mem_of_get? hchild
      exact ⟨(s, child), hmem, (mem_listedAt (ih (s, child) hmem)).2 ⟨rest, hpath, hrest⟩⟩

/-- **Values are listed in the order of the parts of their paths**, from the first part on. -/
theorem Proper.increasing_listed (h : Proper t) : (listed t).Pairwise fun e e' => e.1 < e'.1 := by
  induction h with
  | @node own children hincreasing hkeys hchildren ih =>
    have hproper : Proper (⟨own, children⟩ : Tree α) := .node hincreasing hkeys hchildren
    rw [listed, listedIn_eq_flatMap, List.pairwise_flatMap]
    constructor
    · rintro ⟨s, child⟩ hmem
      refine List.pairwise_append.2 ⟨?_, ?_, ?_⟩
      · cases child.value with
        | none => exact List.Pairwise.nil
        | some value => exact List.pairwise_singleton _ _
      · refine List.pairwise_map.2 ((ih _ hmem).imp ?_)
        exact fun hlt => List.cons_lt_cons_iff.2 (.inr ⟨rfl, hlt⟩)
      · rintro e he e' he'
        obtain ⟨value, -, rfl⟩ := List.mem_map.1 he
        obtain ⟨below, hbelow, rfl⟩ := List.mem_map.1 he'
        have hne := (((hchildren _ hmem).mem_listed below).1 hbelow).1
        obtain ⟨s', rest, hpath⟩ := List.exists_cons_of_ne_nil hne
        refine List.cons_lt_cons_iff.2 (.inr ⟨rfl, ?_⟩)
        rw [hpath]
        exact List.nil_lt_cons s' rest
    · refine hincreasing.imp_of_mem fun {entry entry'} hmem hmem' hlt e he e' he' => ?_
      obtain ⟨rest, hpath, -⟩ := (mem_listedAt (hchildren _ hmem).mem_listed).1 he
      obtain ⟨rest', hpath', -⟩ := (mem_listedAt (hchildren _ hmem').mem_listed).1 he'
      rw [hpath, hpath']
      exact List.cons_lt_cons_iff.2 (.inl hlt)

/-! ## The list of the values -/

/-- What parts lead to has these parts. -/
theorem segments_pathBelow (hne : path ≠ []) (hkeys : ∀ s ∈ path, s ≠ "")
    (hdots : ∀ s ∈ path, '.' ∉ s.toList) : segments (pathBelow "" path) = path := by
  obtain ⟨s, rest, rfl⟩ := List.exists_cons_of_ne_nil hne
  have htext := toList_pathBelow (hkeys s List.mem_cons_self) rest
  rw [pathBelow, if_pos rfl, ← String.ofList_toList (s := pathBelow s rest), htext, ← List.map_cons]
  exact segments_joined hne hdots

theorem Proper.segments_of_mem_listed (h : Proper t) (hdotless : t.Dotless) {e : List String × α}
    (he : e ∈ listed t) : segments (pathBelow "" e.1) = e.1 := by
  obtain ⟨hne, hget⟩ := (h.mem_listed e).1 he
  exact segments_pathBelow hne (h.keys hget) (hdotless _ (hasNode_of_get? hget))

/-- **The list holds each value with its path**, and nothing else. -/
theorem Proper.mem_toList_iff (h : Proper t) (hdotless : t.Dotless) {path : String} {value : α} :
    (path, value) ∈ t.toList ↔ t.get? (segments path) = some value := by
  constructor
  · intro hmem
    rw [toList, h.listFrom_eq] at hmem
    obtain ⟨e, he, heq⟩ := List.mem_map.1 hmem
    obtain ⟨rfl, rfl⟩ := Prod.mk.inj heq
    rw [h.segments_of_mem_listed hdotless he]
    exact ((h.mem_listed e).1 he).2
  · exact h.mem_toList

theorem Proper.increasing_toList (h : Proper t) (hdotless : t.Dotless) :
    t.toList.Pairwise fun e e' => segments e.1 < segments e'.1 := by
  rw [toList, h.listFrom_eq, List.pairwise_map]
  refine h.increasing_listed.imp_of_mem fun {e e'} he he' hlt => ?_
  rw [h.segments_of_mem_listed hdotless he, h.segments_of_mem_listed hdotless he']
  exact hlt

end Tree

end Highlight
