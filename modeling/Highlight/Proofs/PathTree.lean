import Highlight.Registry.Tree
import Highlight.Scope.Parse

/-!
# What a tree of paths holds

A tree answers like a map from paths: changing the value at one path leaves the values at all others
as they are. What is below and above a changed node plays no part, and neither does pruning.

- `segments_injective`: paths are told apart by their parts.
- `Tree.Proper`: the trees that the operations lead to. Keys increase, so that putting a value back
  gives the same tree, and are not empty, so that the listed paths are the right ones.
- `Tree.get?_insert_self`, `Tree.get?_insert_other` and the like: one equation for each operation.
- `Tree.insert_clear`: taking a value out and putting it back.
- `Tree.Proper.mem_toList`: each value is listed with its path.
-/

namespace Highlight

theorem segments_ne_nil (path : String) : segments path ≠ [] := by
  unfold segments
  simp [Text.pieces_ne_nil]

/-- Different paths have different parts. -/
theorem segments_injective : Function.Injective segments := by
  intro p q h
  have hpieces : Text.pieces '.' p.toList = Text.pieces '.' q.toList :=
    (List.map_inj_right fun _ _ => String.ofList_inj.1).1 h
  have htexts := congrArg (Text.joined '.') hpieces
  rw [Text.joined_pieces, Text.joined_pieces] at htexts
  exact String.toList_injective htexts

/-- The parts of a path that reads as a scope are not empty. -/
theorem segments_of_scope {path : String} {scope : Scope} (h : Scope.ofText path = .ok scope) :
    ∀ s ∈ segments path, s ≠ "" := by
  have hparts : ∀ (pieces : List (List Char)) (parts : List Part),
      pieces.mapM Part.read = .ok parts → ∀ p ∈ pieces, p ≠ [] := by
    intro pieces
    induction pieces with
    | nil => exact fun _ _ _ hp => absurd hp List.not_mem_nil
    | cons first rest ih =>
      intro parts hparts p hp
      rw [List.mapM_cons] at hparts
      cases hfirst : Part.read first with
      | error fault =>
        rw [hfirst] at hparts
        cases hparts
      | ok part =>
        cases hrest : rest.mapM Part.read with
        | error fault =>
          rw [hfirst, hrest] at hparts
          cases hparts
        | ok others =>
          rcases List.mem_cons.1 hp with rfl | hp
          · rintro rfl
            cases hfirst
          · exact ih others hrest p hp
  unfold Scope.ofText at h
  split at h
  · rename_i read hread
    unfold Scope.read at hread
    split at hread
    · cases hread
    · split at hread
      · cases hread
      · cases hread
      · rename_i hmap
        intro s hs
        obtain ⟨p, hp, rfl⟩ := List.mem_map.1 hs
        intro hempty
        refine hparts _ _ hmap p hp ?_
        rw [← String.toList_ofList (l := p), hempty]
        rfl
  · cases h

namespace Tree

variable {α : Type}

/-- A tree in which the keys at each node increase and are not empty. -/
inductive Proper : Tree α → Prop
  | node {value : Option α} {children : List (String × Tree α)} :
      Entries.Increasing children → (∀ e ∈ children, e.1 ≠ "") → (∀ e ∈ children, Proper e.2) →
      Proper ⟨value, children⟩

namespace Proper

variable {t other : Tree α} {s : String} {path : List String}

theorem empty : Proper (Tree.empty : Tree α) :=
  .node List.Pairwise.nil (fun _ h => absurd h List.not_mem_nil) fun _ h => absurd h List.not_mem_nil

theorem increasing (h : Proper t) : Entries.Increasing t.children := by
  cases h with
  | node hincreasing _ _ => exact hincreasing

/-- The children of a proper tree are proper. -/
theorem child (h : Proper t) (hget : Entries.get? s t.children = some other) :
    s ≠ "" ∧ Proper other := by
  cases h with
  | node _ hkeys hchildren =>
    have hmem := Entries.mem_of_get? hget
    exact ⟨hkeys _ hmem, hchildren _ hmem⟩

/-- Only the children count. -/
theorem withValue (h : Proper t) (value : Option α) : Proper ⟨value, t.children⟩ := by
  cases h with
  | node hincreasing hkeys hchildren => exact .node hincreasing hkeys hchildren

/-- A proper child can be put at a key that is not empty. -/
theorem put (h : Proper t) (hs : s ≠ "") (hother : Proper other) :
    Proper ⟨t.value, Entries.put s other t.children⟩ := by
  cases h with
  | node hincreasing hkeys hchildren =>
    refine .node (hincreasing.put s other) (fun e he => ?_) fun e he => ?_
    · rcases Entries.mem_put he with rfl | he
      · exact hs
      · exact hkeys e he
    · rcases Entries.mem_put he with rfl | he
      · exact hother
      · exact hchildren e he

theorem erase (h : Proper t) (s : String) : Proper ⟨t.value, Entries.erase s t.children⟩ := by
  cases h with
  | node hincreasing hkeys hchildren =>
    exact .node (hincreasing.erase s) (fun e he => hkeys e (Entries.mem_of_mem_erase he))
      fun e he => hchildren e (Entries.mem_of_mem_erase he)

/-- Inserting at a path without empty parts keeps a tree proper. -/
theorem insert (h : Proper t) (value : α) (hpath : ∀ s ∈ path, s ≠ "") :
    Proper (t.insert value path) := by
  induction path generalizing t with
  | nil => exact h.withValue (some value)
  | cons s rest ih =>
    refine h.put (hpath s List.mem_cons_self)
      (ih ?_ fun s' hs => hpath s' (List.mem_cons_of_mem s hs))
    cases hget : Entries.get? s t.children with
    | none => exact empty
    | some child => exact (h.child hget).2

/-- Clearing takes a value and no nodes. -/
theorem clear (h : Proper t) (path : List String) : Proper (t.clear path) := by
  induction path generalizing t with
  | nil => exact h.withValue none
  | cons s rest ih =>
    rw [Tree.clear]
    cases hget : Entries.get? s t.children with
    | none => exact h
    | some child => exact h.put (h.child hget).1 (ih (h.child hget).2)

end Proper

/-! ## One equation for each operation -/

variable {path other : List String} {t : Tree α}

theorem get?_cons (s : String) (rest : List String) (t : Tree α) :
    t.get? (s :: rest) = (Entries.get? s t.children).bind (get? rest) := by
  unfold get?
  rw [node?]
  cases Entries.get? s t.children with
  | none => rfl
  | some child => rfl

@[simp] theorem get?_empty (path : List String) : (empty : Tree α).get? path = none := by
  cases path with
  | nil => rfl
  | cons s rest => rw [get?_cons]; rfl

/-- What is found below a key for which a child was put. -/
theorem get?_put (s : String) (child : Tree α) (value : Option α) (s' : String)
    (rest : List String) : get? (s' :: rest) ⟨value, Entries.put s child t.children⟩ =
      if s' = s then child.get? rest else t.get? (s' :: rest) := by
  rw [get?_cons, get?_cons]
  split
  · rename_i heq
    rw [heq, Entries.get?_put_self]
    rfl
  · rename_i hne
    rw [Entries.get?_put_other hne]

@[simp] theorem get?_insert_self (path : List String) (value : α) (t : Tree α) :
    (t.insert value path).get? path = some value := by
  induction path generalizing t with
  | nil => rfl
  | cons s rest ih =>
    rw [insert, get?_put, if_pos rfl]
    exact ih _

/-- Inserting changes nothing at other paths. -/
theorem get?_insert_other (h : other ≠ path) (value : α) :
    (t.insert value path).get? other = t.get? other := by
  induction path generalizing other t with
  | nil =>
    cases other with
    | nil => exact absurd rfl h
    | cons s rest => rfl
  | cons s rest ih =>
    cases other with
    | nil => rfl
    | cons s' rest' =>
      rw [insert, get?_put]
      split
      · rename_i heq
        rw [ih fun hrest => h (by rw [heq, hrest]), heq, get?_cons]
        -- a child that is new was empty
        cases Entries.get? s t.children with
        | none => exact get?_empty rest'
        | some child => rfl
      · rfl

/-- Clearing changes nothing at other paths. -/
theorem get?_clear_other (h : other ≠ path) : (t.clear path).get? other = t.get? other := by
  induction path generalizing other t with
  | nil =>
    cases other with
    | nil => exact absurd rfl h
    | cons s rest => rfl
  | cons s rest ih =>
    rw [clear]
    split
    · rename_i child hget
      cases other with
      | nil => rfl
      | cons s' rest' =>
        rw [get?_put]
        split
        · rename_i heq
          rw [ih fun hrest => h (by rw [heq, hrest]), heq, get?_cons, hget]
          rfl
        · rfl
    · rfl

/-- **Taking a value out and putting it back** gives the same tree. -/
theorem insert_clear (h : Proper t) {value : α} (hget : t.get? path = some value) :
    (t.clear path).insert value path = t := by
  induction path generalizing t with
  | nil =>
    have hvalue : t.value = some value := hget
    obtain ⟨own, children⟩ := t
    cases hvalue
    rfl
  | cons s rest ih =>
    rw [get?_cons] at hget
    obtain ⟨child, hchild, hrest⟩ := Option.bind_eq_some_iff.1 hget
    rw [clear, hchild]
    show (⟨t.value, Entries.put s (insert value rest ((Entries.get? s (Entries.put s _ _)).getD empty))
      (Entries.put s _ _)⟩ : Tree α) = t
    rw [Entries.get?_put_self, Option.getD_some, Entries.put_put, ih (h.child hchild).2 hrest,
      h.increasing.put_eq_self hchild]
    cases t
    rfl

/-- What a tree holds of which a child has lost what it had at a path. -/
theorem Proper.replace (h : Proper t) {s : String} {rest : List String} {child child' : Tree α}
    (hget : Entries.get? s t.children = some child) (hproper : Proper child')
    (hsame : ∀ other, child'.get? other = if other = rest then none else child.get? other) :
    Proper ⟨t.value, Entries.put s child' t.children⟩ ∧
      ∀ other, get? other ⟨t.value, Entries.put s child' t.children⟩ =
        if other = s :: rest then none else t.get? other := by
  refine ⟨h.put (h.child hget).1 hproper, fun other => ?_⟩
  cases other with
  | nil => rfl
  | cons s' rest' =>
    rw [get?_put]
    by_cases heq : s' = s
    · subst heq
      rw [if_pos rfl, hsame, get?_cons, hget]
      by_cases hrest : rest' = rest
      · rw [if_pos hrest, if_pos (by rw [hrest])]
      · rw [if_neg hrest, if_neg fun hcons => hrest (List.cons.inj hcons).2]
        rfl
    · rw [if_neg heq, if_neg fun hcons => heq (List.cons.inj hcons).1]

/-- What a tree holds of which a child with nothing below it was pruned. -/
theorem Proper.prune (h : Proper t) {s : String} {child : Tree α}
    (hget : Entries.get? s t.children = some child) (hleaf : child.children = []) :
    Proper ⟨t.value, Entries.erase s t.children⟩ ∧
      ∀ other, get? other ⟨t.value, Entries.erase s t.children⟩ =
        if other = [s] then none else t.get? other := by
  refine ⟨h.erase s, fun other => ?_⟩
  cases other with
  | nil => rfl
  | cons s' rest' =>
    rw [get?_cons]
    by_cases heq : s' = s
    · subst heq
      rw [h.increasing.get?_erase_self]
      split
      · rfl
      · rename_i hne
        cases rest' with
        | nil => exact absurd rfl hne
        | cons s'' rest'' =>
          rw [get?_cons, hget]
          show none = child.get? (s'' :: rest'')
          rw [get?_cons, hleaf]
          rfl
    · rw [Entries.get?_erase_other heq, if_neg fun hcons => heq (List.cons.inj hcons).1, get?_cons]

/-- Removing keeps a tree proper, and only the removed value is missing. -/
theorem Proper.remove (h : Proper t) {t' : Tree α} (hremove : t.remove? path = some t') :
    Proper t' ∧ ∀ other, t'.get? other = if other = path then none else t.get? other := by
  induction path generalizing t t' with
  | nil => cases hremove
  | cons s rest ih =>
    cases rest with
    | nil =>
      rw [remove?] at hremove
      split at hremove
      · cases hremove
      · rename_i child hget
        split at hremove
        · cases hremove
        · split at hremove
          · rename_i hleaf
            cases hremove
            exact h.prune hget (List.isEmpty_iff.1 hleaf)
          · cases hremove
            refine h.replace hget ((h.child hget).2.withValue none) fun other => ?_
            cases other with
            | nil => rfl
            | cons s' rest' => rfl
    | cons s' rest =>
      rw [remove?] at hremove
      · split at hremove
        · cases hremove
        · rename_i child hget
          split at hremove
          · cases hremove
          · rename_i child' hchild'
            cases hremove
            obtain ⟨hproper, hsame⟩ := ih (h.child hget).2 hchild'
            exact h.replace hget hproper hsame
      · exact fun hnil => nomatch hnil

/-! ## The list of the values -/

/-- The path that some parts lead to from another. -/
def pathBelow (path : String) : List String → String
  | [] => path
  | s :: rest => pathBelow (if path = "" then s else path ++ "." ++ s) rest

/-- The text of a path is that of its parts with dots in between. -/
theorem toList_pathBelow {path : String} (hpath : path ≠ "") (rest : List String) :
    (pathBelow path rest).toList = Text.joined '.' (path.toList :: rest.map String.toList) := by
  induction rest generalizing path with
  | nil => rfl
  | cons s rest ih =>
    have hlonger : path ++ "." ++ s ≠ "" := by
      intro h
      have := congrArg String.toList h
      simp at this
    rw [pathBelow, if_neg hpath, ih hlonger]
    cases rest with
    | nil => simp [Text.joined]
    | cons s' rest => simp [Text.joined]

/-- A path without empty parts is what its parts lead to. -/
theorem pathBelow_segments {path : String} (h : ∀ s ∈ segments path, s ≠ "") :
    pathBelow "" (segments path) = path := by
  obtain ⟨s, rest, hcons⟩ := List.exists_cons_of_ne_nil (segments_ne_nil path)
  have hs : s ≠ "" := h s (by rw [hcons]; exact List.mem_cons_self)
  rw [hcons, pathBelow, if_pos rfl]
  refine String.toList_injective ?_
  have hparts : (segments path).map String.toList = Text.pieces '.' path.toList := by
    simp [segments, Function.comp_def]
  rw [toList_pathBelow hs, ← List.map_cons, ← hcons, hparts, Text.joined_pieces]

theorem mem_listEntries {path s : String} {child : Tree α} {e : String × α}
    {entries : List (String × Tree α)} (hget : Entries.get? s entries = some child)
    (he : e ∈ child.value.toList.map (pathBelow path [s], ·) ++ listFrom (pathBelow path [s]) child) :
    e ∈ listEntries path entries := by
  induction entries with
  | nil => cases hget
  | cons first rest ih =>
    obtain ⟨k, other⟩ := first
    rw [listEntries]
    by_cases hk : k = s
    · rw [Entries.get?, if_pos hk] at hget
      cases hget
      rw [← hk] at he
      exact List.mem_append_left _ he
    · rw [Entries.get?, if_neg hk] at hget
      exact List.mem_append_right _ (ih hget)

/-- A value below a node is listed with the path that leads there. -/
theorem mem_listFrom {path : String} {value : α} {s : String} {rest : List String} {t : Tree α}
    (h : t.get? (s :: rest) = some value) :
    (pathBelow path (s :: rest), value) ∈ listFrom path t := by
  induction rest generalizing path s t with
  | nil =>
    obtain ⟨own, children⟩ := t
    rw [get?_cons] at h
    obtain ⟨child, hchild, hvalue⟩ := Option.bind_eq_some_iff.1 h
    have hown : child.value = some value := hvalue
    refine mem_listEntries hchild (List.mem_append_left _ ?_)
    rw [hown]
    exact List.mem_singleton.2 rfl
  | cons s' rest ih =>
    obtain ⟨own, children⟩ := t
    rw [get?_cons] at h
    obtain ⟨child, hchild, hrest⟩ := Option.bind_eq_some_iff.1 h
    exact mem_listEntries hchild (List.mem_append_right _ (ih hrest))

/-- The keys on the way to a value are not empty. -/
theorem Proper.keys (h : Proper t) {path : List String} {value : α}
    (hget : t.get? path = some value) :
    ∀ s ∈ path, s ≠ "" := by
  induction path generalizing t with
  | nil => exact fun _ hs => absurd hs List.not_mem_nil
  | cons s rest ih =>
    rw [get?_cons] at hget
    obtain ⟨child, hchild, hrest⟩ := Option.bind_eq_some_iff.1 hget
    intro s' hs
    rcases List.mem_cons.1 hs with rfl | hs
    · exact (h.child hchild).1
    · exact ih (h.child hchild).2 hrest s' hs

/-- **Each value is listed with its path.** -/
theorem Proper.mem_toList (h : Proper t) {path : String} {value : α}
    (hget : t.get? (segments path) = some value) : (path, value) ∈ t.toList := by
  have hpath := pathBelow_segments (h.keys hget)
  obtain ⟨s, rest, hcons⟩ := List.exists_cons_of_ne_nil (segments_ne_nil path)
  rw [hcons] at hget hpath
  have hmem : (pathBelow "" (s :: rest), value) ∈ t.toList := mem_listFrom hget
  rwa [hpath] at hmem

end Tree

end Highlight
