import Highlight.Json.Record

/-!
# Limits of the tokenizer

Two numbers keep a grammar that includes itself from going on forever: how many frames can be open
at once, and how many steps from group to pattern and from include to target are followed when the
patterns of a rule are collected.

- `Options`: the limits. Both are 64-bit numbers, and where one comes from a caller it is checked to
  be one.
- `Options.withStackDepth`: sets the first limit; the bottom frame always exists, so it is at
  least one.
- `Options.toJson`, `Options.ofJson?`: the kept form, in which a missing limit has its default.
-/

namespace Highlight

/-- The limits that the tokenizer keeps. -/
structure Options where
  /-- How many frames can be open at once. -/
  maxStackDepth : UInt64
  /-- How many steps are followed when patterns are collected. -/
  maxIncludeDepth : UInt64
deriving DecidableEq

namespace Options

/-- The limits when nothing else is asked for. -/
def standard : Options := ⟨256, 256⟩

/-- The limits with another bound on open frames. -/
def withStackDepth (o : Options) (depth : UInt64) : Options :=
  { o with maxStackDepth := max depth 1 }

/-- The limits with another bound on the steps that are followed. -/
def withIncludeDepth (o : Options) (depth : UInt64) : Options :=
  { o with maxIncludeDepth := depth }

/-- A natural number of 64 bits. -/
def limit? (j : Json) : Option UInt64 :=
  match j.nat? with
  | some n => if n < UInt64.size then some (UInt64.ofNat n) else none
  | none => none

/-- The kept form of the limits. -/
def toJson (o : Options) : Json :=
  .ofFields [("max_stack_depth", .ofNat o.maxStackDepth.toNat),
    ("max_include_depth", .ofNat o.maxIncludeDepth.toNat)]

/-- Reads the kept form of the limits. -/
def ofJson? (j : Json) : Option Options := do
  let fields ← j.record? ["max_stack_depth", "max_include_depth"]
  let stackDepth ← Json.defaulting standard.maxStackDepth limit? "max_stack_depth" fields
  let includeDepth ← Json.defaulting standard.maxIncludeDepth limit? "max_include_depth" fields
  return ⟨stackDepth, includeDepth⟩

end Options

end Highlight
