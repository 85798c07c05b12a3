import ChoiceExplorer.Config.Lookup

/-!
# Search options

What a search is told: how random values and violations are treated, how deep
a path may become, and the seed of drawn values.
-/

namespace ChoiceExplorer.Search

structure Options where
  /-- A description of the program. -/
  target : String := ""
  /-- Whether random values become choices instead of being drawn. -/
  enumerateRandom : Bool := false
  /-- Whether the search goes on after a violation. -/
  multipleErrors : Bool := false
  /-- The most generators a path may have. -/
  depthLimit : Option Nat := none
  /-- The seed of values that are drawn. -/
  seed : UInt64 := 42
  deriving DecidableEq

namespace Options

def ofConfig (config : Config) : Warned Options :=
  let defaults : Options := {}
  let depthLimit := config.int "search.depth_limit" (-1)
  let enumerateRandom := config.bool "cg.enumerate_random" defaults.enumerateRandom
  let multipleErrors := config.bool "search.multiple_errors" defaults.multipleErrors
  let seed := config.unsigned "search.seed" defaults.seed.toNat
  { value :=
      { target := (config.get? "target").getD defaults.target
        enumerateRandom := enumerateRandom.value
        multipleErrors := multipleErrors.value
        depthLimit := if 0 < depthLimit.value then some depthLimit.value.toNat else none
        seed := seed.value.toUInt64 }
    warnings :=
      depthLimit.warnings ++ enumerateRandom.warnings ++ multipleErrors.warnings ++ seed.warnings }

end Options

end ChoiceExplorer.Search
