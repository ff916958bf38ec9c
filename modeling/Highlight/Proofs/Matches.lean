import Highlight.Tokenizer.Search

/-!
# Matches lie within the line

Whatever pattern is matched, the offsets of the match and of its groups are boundaries of the text
that was searched. A memory may answer a search in place of the pattern, so it has to hold nothing
but such matches: `Searching.Sound` says so of a way to search, and the winner of a search with a
sound memory lies within the line.

- `Found.Within`: a match whose offsets are all boundaries.
- `Pattern.findFrom?_within`: what a pattern finds.
- `Searching.Sound`: what a memory must keep; `Searching.sound_remembering` and
  `Searching.Sound.keeping` are the two ways to search that have one.
- `Tokenizer.next?_within`: the match that wins.
-/

namespace Highlight

open Text (IsBoundary)

theorem mem_of_lookup {α β : Type} [BEq α] [LawfulBEq α] {entries : List (α × β)} {key : α}
    {value : β} (h : entries.lookup key = some value) : (key, value) ∈ entries := by
  obtain ⟨front, back, rfl, -⟩ := List.lookup_eq_some_iff.1 h
  exact List.mem_append_right _ List.mem_cons_self

/-- All offsets of a match are boundaries of the text. -/
structure Found.Within (text : List Char) (found : Found) : Prop where
  start : IsBoundary text found.start
  stop : IsBoundary text found.stop
  groups : ∀ span, some span ∈ found.groups → IsBoundary text span.start ∧ IsBoundary text span.stop

namespace IndexedText

/-- The last offset in a text is that of its end. -/
theorem getLast?_offsetsFrom (start : Nat) (cs : List Char) :
    (Text.offsetsFrom start cs).getLast? = some (start + Text.byteLength cs) := by
  induction cs generalizing start with
  | nil => rfl
  | cons c cs ih =>
    obtain ⟨first, rest, h⟩ :=
      List.exists_cons_of_ne_nil (Text.offsetsFrom_ne_nil (start + c.utf8Size) cs)
    have hlast := ih (start + c.utf8Size)
    rw [Text.offsetsFrom, h, List.getLast?_cons_cons, ← h, hlast, Text.byteLength_cons,
      Nat.add_assoc]

@[simp] theorem byteLength_eq (t : IndexedText) : t.byteLength = Text.byteLength t.text := by
  have h : t.byteLength = ((Text.offsetsFrom 0 t.text).getLast?).getD 0 := by
    simp [byteLength, t.offsets_eq]
  rw [h, getLast?_offsetsFrom, Option.getD_some, Nat.zero_add]

/-- Later places do not have smaller offsets. -/
theorem offset_le_offset (t : IndexedText) {a b : Nat} (h : a ≤ b) :
    t.offset a ≤ t.offset b := by
  by_cases hb : b ≤ t.size
  · rcases Nat.lt_or_eq_of_le h with hlt | rfl
    · exact Nat.le_of_lt (offset_lt_offset hlt hb)
    · exact Nat.le_refl _
  · -- behind the text all places have the offset of its end
    have hend : t.offset b = t.byteLength := by
      have hsize := t.size_offsets
      unfold offset
      rw [Array.getD_eq_getD_getElem?, Array.getElem?_eq_none (by omega), Option.getD_none]
    rw [hend, byteLength_eq]
    exact (t.isBoundary_offset a).le

/-- Only an offset up to the end has a place. -/
theorem le_of_place? {t : IndexedText} {offset place : Nat} (h : t.place? offset = some place) :
    offset ≤ Text.byteLength t.text := by
  have hb := t.isBoundary_offset place
  rw [offset_of_place? h] at hb
  exact hb.le

end IndexedText

/-- Places are boundaries, so a match by places lies within the line. -/
theorem Match.found_within (m : Match) (line : IndexedText) : (m.found line).Within line.text := by
  refine ⟨line.isBoundary_offset _, line.isBoundary_offset _, fun span hspan => ?_⟩
  rcases List.mem_cons.1 hspan with h | h
  · cases h
    exact ⟨line.isBoundary_offset _, line.isBoundary_offset _⟩
  · obtain ⟨group, -, hgroup⟩ := List.mem_map.1 h
    obtain ⟨places, -, rfl⟩ := Option.map_eq_some_iff.1 hgroup
    exact ⟨line.isBoundary_offset _, line.isBoundary_offset _⟩

variable [Engine]

namespace Pattern

/-- What a pattern finds lies within the line. -/
theorem findFrom?_within {p : Pattern} {line : IndexedText} {place : Nat} {firstLine : Bool}
    {found : Found} (h : p.findFrom? line place firstLine = some found) :
    found.Within line.text := by
  unfold findFrom? at h
  split at h
  · cases h
  · split at h
    · split at h
      · split at h
        · cases h
          exact Match.found_within _ line
        · cases h
      · cases h
    · obtain ⟨m, -, rfl⟩ := Option.map_eq_some_iff.1 h
      exact Match.found_within m line

/-- The same for a search from an offset, which finds nothing if that is no boundary. -/
theorem findAt?_within {p : Pattern} {line : IndexedText} {offset : Nat} {firstLine : Bool}
    {found : Found} (h : p.findAt? line offset firstLine = some found) :
    found.Within line.text := by
  obtain ⟨place, -, hfound⟩ := Option.bind_eq_some_iff.1 h
  exact findFrom?_within hfound

end Pattern

/-! ## Sound memories -/

/-- A property of memories on a line that a way to search keeps, and by which what it finds lies
within the line. -/
structure Searching.Sound {σ : Type} (searching : Searching σ) (Holds : IndexedText → σ → Prop) :
    Prop where
  enter : ∀ line firstLine memory, Holds line (searching.enter firstLine memory)
  leave : ∀ {line before} inner, Holds line before → Holds line (searching.leave before inner)
  noteFirstLine : ∀ {line memory} firstLine, Holds line memory →
    Holds line (searching.noteFirstLine firstLine memory)
  find : ∀ {line memory} ref pattern place firstLine, Holds line memory →
    (∀ found, (searching.find ref pattern line place firstLine memory).1 = some found →
      found.Within line.text) ∧
    Holds line (searching.find ref pattern line place firstLine memory).2
  candidates : ∀ {line memory} t ref, Holds line memory →
    Holds line (searching.candidates t ref memory).2
  endPattern : ∀ {line memory} text, Holds line memory →
    Holds line (searching.endPattern text memory).2

/-- All results in a memory lie within the line. -/
def SearchMemory.Within (line : IndexedText) (memory : SearchMemory) : Prop :=
  ∀ rule start found, (rule, start, some found) ∈ memory.results → found.Within line.text

namespace SearchMemory

omit [Engine]

variable {line : IndexedText} {memory : SearchMemory}

/-- What a memory answers with is one of its results. -/
theorem Within.known? (h : memory.Within line) {rule : RuleRef} {offset : Nat} {found : Found}
    (hk : memory.known? rule offset = some (some found)) : found.Within line.text := by
  unfold SearchMemory.known? at hk
  split at hk
  · cases hk
  · rename_i start result hl
    split at hk
    · cases hk
    · split at hk
      · cases hk
      · split at hk
        · cases hk
        · cases hk
          exact h _ _ _ (mem_of_lookup hl)

/-- A search that found something within the line can be added. -/
theorem Within.note (h : memory.Within line) (rule : RuleRef) (offset : Nat) {result : Option Found}
    (hr : ∀ found, result = some found → found.Within line.text) :
    (memory.note rule offset result).Within line := by
  intro rule' start found hmem
  rcases List.mem_cons.1 hmem with heq | hmem
  · cases heq
    exact hr found rfl
  · exact h rule' start found (List.mem_filter.1 hmem).1

end SearchMemory

namespace Searching

/-- A memory with nothing but matches within the line answers with such a match, or with a search.
-/
theorem sound_remembering : Sound remembering SearchMemory.Within where
  enter _ _ _ := fun _ _ _ h => by cases h
  leave _ h := h
  noteFirstLine firstLine h := by
    show SearchMemory.Within _ (ite _ _ _)
    -- on the first line that no longer counts as such all results are forgotten
    split
    · exact h
    · intro _ _ _ h
      cases h
  find ref pattern place firstLine h := by
    simp only [remembering]
    split
    · exact ⟨fun _ hf => Pattern.findFrom?_within hf, h⟩
    · split
      · rename_i result hk
        exact ⟨fun found hf => h.known? (hk.trans (congrArg some hf)), h⟩
      · exact ⟨fun _ hf => Pattern.findFrom?_within hf,
          h.note _ _ fun _ hf => Pattern.findFrom?_within hf⟩
  candidates _ _ h := h
  endPattern _ h := h

/-- Tables hold nothing that was found on the line. -/
theorem Sound.keeping {σ : Type} {searching : Searching σ} {Holds : IndexedText → σ → Prop}
    (h : searching.Sound Holds) :
    searching.keeping.Sound fun line memory => Holds line memory.1 where
  enter line firstLine memory := h.enter line firstLine memory.1
  leave inner hm := h.leave inner.1 hm
  noteFirstLine firstLine hm := h.noteFirstLine firstLine hm
  find ref pattern place firstLine hm := h.find ref pattern place firstLine hm
  candidates _ _ hm := hm
  endPattern _ hm := hm

variable {σ : Type} {searching : Searching σ} {Holds : IndexedText → σ → Prop}
  {line : IndexedText} {memory : σ}

theorem Sound.filledPattern (h : searching.Sound Holds) (declared : Pattern)
    (filled : Option (List Char)) (hm : Holds line memory) :
    Holds line (searching.filledPattern declared filled memory).2 := by
  cases filled with
  | none => exact hm
  | some text => exact h.endPattern text hm

end Searching

/-! ## The match that wins -/

namespace Tokenizer

variable {σ : Type} {searching : Searching σ} {Holds : IndexedText → σ → Prop}
  {line : IndexedText}

/-- A match, if there is one, that lies within the line, and a memory that holds what it should. -/
def Sighted (Holds : IndexedText → σ → Prop) (line : IndexedText)
    (result : Option (Choice × Found) × σ) : Prop :=
  (∀ choice found, result.1 = some (choice, found) → found.Within line.text) ∧ Holds line result.2

/-- The best candidate is the one from before or one that a search found. -/
theorem bestOf_sighted (t : Tokenizer) (h : searching.Sound Holds) (place : Nat)
    (firstLine : Bool) (candidates : List RuleRef) {best : Option (Choice × Found)} {memory : σ}
    (hb : Sighted Holds line (best, memory)) :
    Sighted Holds line (t.bestOf searching line place firstLine candidates best memory) := by
  induction candidates generalizing best memory with
  | nil => exact hb
  | cons ref rest ih =>
    unfold bestOf
    split
    · exact ih hb
    · rename_i pattern _
      have hfind := h.find ref pattern place firstLine hb.2
      split
      · rename_i memory' heq
        rw [heq] at hfind
        exact ih ⟨hb.1, hfind.2⟩
      · rename_i found memory' heq
        rw [heq] at hfind
        -- this match wins over those before, if it begins before them
        have hwithin : Sighted Holds line (some (.rule ref, found), memory') :=
          ⟨fun _ _ hf => by cases hf; exact hfind.1 found rfl, hfind.2⟩
        split
        · exact ih ⟨hb.1, hfind.2⟩
        · split
          · exact hwithin
          · exact ih hwithin

/-- **The match that wins lies within the line**, the end of the region included. -/
theorem next?_within (t : Tokenizer) (h : searching.Sound Holds) (stack : Stack) (place : Nat)
    (firstLine : Bool) {memory : σ} (hm : Holds line memory) :
    Sighted Holds line (t.next? searching stack line place firstLine memory) := by
  have hnone : ∀ {memory : σ}, Holds line memory → Sighted Holds line (none, memory) :=
    fun hm => ⟨nofun, hm⟩
  unfold next?
  split
  rename_i candidates memory₁ hc
  have hm₁ : Holds line memory₁ := by
    have hkept := h.candidates t stack.top.rule hm
    rwa [hc] at hkept
  split
  · exact bestOf_sighted t h place firstLine _ (hnone hm₁)
  · rename_i r _
    split
    rename_i pattern memory₂ hp
    have hm₂ : Holds line memory₂ := by
      have hkept := h.filledPattern r.closing stack.top.endPattern hm₁
      rwa [hp] at hkept
    -- the end of the region is tried after the rules or before them
    split
    · split
      rename_i best memory₃ hbest
      have hs : Sighted Holds line (best, memory₃) :=
        hbest ▸ bestOf_sighted t h place firstLine candidates (hnone hm₂)
      split
      · exact hs
      · rename_i found hfound
        split
        · exact ⟨fun _ _ hf => by cases hf; exact Pattern.findFrom?_within hfound, hs.2⟩
        · exact hs
    · split
      · exact bestOf_sighted t h place firstLine _ (hnone hm₂)
      · rename_i found hfound
        have hs : Sighted Holds line (some (.close, found), memory₂) :=
          ⟨fun _ _ hf => by cases hf; exact Pattern.findFrom?_within hfound, hm₂⟩
        split
        · exact hs
        · exact bestOf_sighted t h place firstLine _ hs

end Tokenizer

end Highlight
