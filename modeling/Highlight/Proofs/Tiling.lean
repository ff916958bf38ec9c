import Highlight.Token

/-!
# Tilings

The tokens of a line leave no gap and do not overlap. `Tiles` says so of any range of a text, and the
lemmas follow a list of tokens from its start: producing keeps a tiling whatever offset it is given,
because it never goes back and drops what would be empty.

- `Tiles`: tokens that tile a range of a text.
- `TokenList.TilesFrom`: the invariant of a token list.
- `TokenList.TilesFrom.produce`, `TokenList.TilesFrom.produceAll`: producing keeps it.
- `TokenList.TilesFrom.clip`: cutting off what was added behind a line leaves a tiling of the line.
-/

namespace Highlight

namespace Text

theorem IsBoundary.append {text : List Char} {offset : Nat} (h : IsBoundary text offset)
    (rest : List Char) : IsBoundary (text ++ rest) offset := by
  obtain ⟨before, after, rfl, hb⟩ := h
  exact ⟨before, after ++ rest, by simp, hb⟩

/-- A boundary that lies within the first part of a text is one of that part. -/
theorem IsBoundary.of_append {text rest : List Char} {offset : Nat}
    (h : IsBoundary (text ++ rest) offset) (hle : offset ≤ byteLength text) :
    IsBoundary text offset := by
  obtain ⟨before, after, heq, hb⟩ := h
  rcases List.append_eq_append_iff.1 heq with ⟨more, rfl, -⟩ | ⟨more, rfl, -⟩
  · have hzero : byteLength more = 0 := by
      rw [byteLength_append] at hb
      omega
    rw [byteLength_eq_zero_iff] at hzero
    subst hzero
    exact ⟨text, [], (List.append_nil text).symm, by simpa using hb⟩
  · exact ⟨before, more, rfl, hb⟩

end Text

open Text (IsBoundary)

/-- Tokens tile a text from one offset to another: the first begins at the one and the last ends at
the other, each begins where the one before it ends, none is empty, and all end at boundaries. -/
inductive Tiles (text : List Char) : Nat → Nat → List Token → Prop
  | done (offset : Nat) : Tiles text offset offset []
  | next {start middle stop : Nat} {scopes : List Scope} {rest : List Token} :
      start < middle → IsBoundary text middle → Tiles text middle stop rest →
      Tiles text start stop (⟨⟨start, middle⟩, scopes⟩ :: rest)

namespace Tiles

variable {text : List Char} {start middle stop : Nat} {tokens more : List Token}

theorem le (h : Tiles text start stop tokens) : start ≤ stop := by
  induction h with
  | done => exact Nat.le_refl _
  | next hlt _ _ ih => exact Nat.le_trans (Nat.le_of_lt hlt) ih

theorem append (h : Tiles text start middle tokens) (h' : Tiles text middle stop more) :
    Tiles text start stop (tokens ++ more) := by
  induction h with
  | done => exact h'
  | next hlt hb _ ih => exact .next hlt hb (ih h')

/-- A tiling that does not lie behind the text ends within it. -/
theorem stop_le (h : Tiles text start stop tokens) :
    stop ≤ max start (Text.byteLength text) := by
  induction h with
  | done => exact Nat.le_max_left _ _
  | next _ hb _ ih =>
    have := hb.le
    omega

/-- An empty range has no tokens. -/
theorem eq_nil (h : Tiles text start start tokens) : tokens = [] := by
  cases h with
  | done => rfl
  | next hlt _ hrest => exact absurd hrest.le (Nat.not_le.2 hlt)

theorem isBoundary_of_mem (h : Tiles text start stop tokens) {token : Token}
    (ht : token ∈ tokens) : IsBoundary text token.span.stop := by
  induction h with
  | done => simp at ht
  | next _ hb _ ih =>
    rcases List.mem_cons.1 ht with rfl | ht
    · exact hb
    · exact ih ht

/-- A tiling of the first part of a text is one of the whole text. -/
theorem append_text (h : Tiles text start stop tokens) (rest : List Char) :
    Tiles (text ++ rest) start stop tokens := by
  induction h with
  | done offset => exact .done offset
  | next hlt hb _ ih => exact .next hlt (hb.append rest) ih

/-- A tiling that stays within the first part of a text is one of that part. -/
theorem of_append_text {rest : List Char} (h : Tiles (text ++ rest) start stop tokens)
    (hle : stop ≤ Text.byteLength text) : Tiles text start stop tokens := by
  induction h with
  | done offset => exact .done offset
  | next hlt hb hrest ih =>
    exact .next hlt (hb.of_append (Nat.le_trans hrest.le hle)) (ih hle)

/-- No token begins before the start. -/
theorem filter_eq_nil (h : Tiles text start stop tokens) {size : Nat} (hle : size ≤ start) :
    tokens.filter (fun token => token.span.start < size) = [] := by
  induction h with
  | done => rfl
  | next hlt _ _ ih =>
    rw [List.filter_cons_of_neg (by simpa using hle)]
    exact ih (Nat.le_trans hle (Nat.le_of_lt hlt))

end Tiles

namespace TokenList

/-- The tokens produced so far tile the text from an offset on. -/
def TilesFrom (text : List Char) (start : Nat) (tokens : TokenList) : Prop :=
  Tiles text start tokens.position tokens.toList

variable {text : List Char} {start : Nat} {tokens : TokenList}

theorem tilesFrom_startingAt (text : List Char) (start : Nat) :
    TilesFrom text start (startingAt start) := .done start

theorem TilesFrom.produce (h : TilesFrom text start tokens) {stop : Nat}
    (hb : IsBoundary text stop) (scopes : List Scope) :
    TilesFrom text start (tokens.produce stop scopes) := by
  rcases Nat.lt_or_ge tokens.position stop with hlt | hle
  · have hpos : (tokens.produce stop scopes).position = stop := by
      rw [position_produce]
      exact Nat.max_eq_right (Nat.le_of_lt hlt)
    unfold TilesFrom
    rw [hpos, toList_produce_of_lt hlt]
    exact h.append (.next hlt hb (.done stop))
  · rw [produce_of_le hle]
    exact h

theorem TilesFrom.produceAll (h : TilesFrom text start tokens) {more : List Token}
    (hb : ∀ token ∈ more, IsBoundary text token.span.stop) :
    TilesFrom text start (tokens.produceAll more) := by
  unfold TokenList.produceAll
  induction more generalizing tokens with
  | nil => exact h
  | cons token more ih =>
    rw [List.foldl_cons]
    exact ih (h.produce (hb token List.mem_cons_self) _)
      fun other ho => hb other (List.mem_cons_of_mem _ ho)

end TokenList

/-! ## Cutting off the end -/

/-- The tokens of a tiling that begin before an offset are the tokens in front of the one that
reaches it, and that one. -/
theorem Tiles.split {text : List Char} {start stop size : Nat} {tokens : List Token}
    (h : Tiles text start stop tokens) (hlt : start < size) (hle : size ≤ stop) :
    ∃ front last, tokens.filter (fun token => token.span.start < size) = front ++ [last] ∧
      Tiles text start last.span.start front ∧ last.span.start < size ∧
      size ≤ last.span.stop := by
  induction h with
  | done => omega
  | @next start middle stop scopes rest hsm hb hrest ih =>
    rw [List.filter_cons_of_pos (by simpa using hlt)]
    rcases Nat.lt_or_ge middle size with hm | hm
    · obtain ⟨front, last, hf, ht, hls, hle'⟩ := ih hm hle
      exact ⟨_ :: front, last, by rw [hf, List.cons_append], .next hsm hb ht, hls, hle'⟩
    · -- the first token reaches the offset, so all that follow begin behind it
      refine ⟨[], ⟨⟨start, middle⟩, scopes⟩, ?_, .done start, hlt, hm⟩
      rw [hrest.filter_eq_nil hm, List.nil_append]

/-- Clipped to the line, tokens that tile the line and what was added behind it tile the line. -/
theorem TokenList.TilesFrom.clip {line rest : List Char} {tokens : TokenList}
    (h : tokens.TilesFrom (line ++ rest) 0) (hle : Text.byteLength line ≤ tokens.position) :
    Tiles line 0 (Text.byteLength line) (tokens.clip (Text.byteLength line)) := by
  rcases Nat.eq_zero_or_pos (Text.byteLength line) with hz | hpos
  · rw [hz]
    have hnone : tokens.reversed.filter (fun token => token.span.start < 0) = [] := by simp
    rw [TokenList.clip, hnone]
    exact .done 0
  · obtain ⟨front, last, hf, ht, hlt, hstop⟩ := h.split hpos hle
    have hrev : tokens.reversed.filter (fun token => token.span.start < Text.byteLength line)
        = last :: front.reverse := by
      rw [← List.reverse_inj, ← List.filter_reverse, List.reverse_cons, List.reverse_reverse]
      exact hf
    rw [TokenList.clip, hrev]
    show Tiles line 0 _ (List.reverse (_ :: front.reverse))
    rw [List.reverse_cons, List.reverse_reverse, Nat.min_eq_right hstop]
    have hfront : Tiles line 0 last.span.start front := ht.of_append_text (Nat.le_of_lt hlt)
    exact hfront.append (.next hlt (Text.isBoundary_byteLength line) (.done _))

end Highlight
