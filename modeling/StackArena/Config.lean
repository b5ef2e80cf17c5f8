/-
  The parameters of a stack, and which of them are accepted.

  `Config.sized b n` holds the defaults around an initial block of `n` bytes; parameters are set
  by record update.  `validate` looks at them in the order initial block, smallest block, growth
  factor, and gives the first that is out of range as a `ConfigError`.
-/
import StackArena.Growth
import StackArena.Binary64.Shortest

namespace StackArena

/-- What becomes of the blocks that an unwind releases. -/
inductive Retention where
  /-- They are kept and reused by the next growth that they are large enough for. -/
  | cache
  /-- They are freed at once. -/
  | release
deriving DecidableEq, Repr

/-- `ConfigError`: the first parameter of a configuration that is out of range. -/
inductive ConfigError where
  | emptyInitialBlock
  | initialBlockTooLarge (size : Nat)
  | emptyMinBlock
  | badGrowthFactor (factor : Binary64)
deriving DecidableEq, Repr

namespace ConfigError

/-- The constraint that is violated. -/
def reason : ConfigError → String
  | emptyInitialBlock => "initial_block_size must be non-zero"
  | initialBlockTooLarge size => s!"initial_block_size must not exceed isize::MAX (got {size})"
  | emptyMinBlock => "min_block_size must be non-zero"
  | badGrowthFactor factor => s!"growth_factor must be finite and positive (got {factor.display})"

/-- The text around the reason for which a configuration is refused. -/
def describe (reason : String) : String := s!"invalid stack config: {reason}"

/-- **Display text** of a configuration error. -/
def display (e : ConfigError) : String := describe e.reason

end ConfigError

/-- `Config`: the parameters of a stack. -/
structure Config where
  initialBlock : Nat
  minBlock : Nat
  growthFactor : Binary64
  retention : Retention
  /-- Whether bytes are overwritten when they are handed out and when they are released. -/
  fill : Bool
deriving Repr

namespace Config

/-- Initial block of a configuration that sets none. -/
def defaultInitialBlock : Nat := 4096

/-- Smallest block of a configuration that sets none. -/
def defaultMinBlock : Nat := 1024

/-- Growth factor of a configuration that sets none: the total capacity doubles. -/
def defaultGrowthFactor : Binary64 := .one

/-- The byte written over memory that is handed out. -/
def newPattern : UInt8 := 0xCD

/-- The byte written over memory that is released. -/
def freedPattern : UInt8 := 0xDD

/-- The configuration with an initial block of `initialBlock` bytes and defaults for all else;
    bytes are overwritten in debug builds. -/
def sized (b : Build) (initialBlock : Nat) : Config where
  initialBlock := initialBlock
  minBlock := defaultMinBlock
  growthFactor := defaultGrowthFactor
  retention := .cache
  fill := b == .debug

/-- The default configuration. -/
def standard (b : Build) : Config := sized b defaultInitialBlock

/-- The policy by which a stack of this configuration grows. -/
def growth (c : Config) : Growth := ⟨c.minBlock, c.growthFactor⟩

/-- The check of all parameters. -/
def validate (c : Config) : Except ConfigError Unit :=
  if c.initialBlock = 0 then .error .emptyInitialBlock
  else if Word.maxSize < c.initialBlock then .error (.initialBlockTooLarge c.initialBlock)
  else if c.minBlock = 0 then .error .emptyMinBlock
  else if !c.growthFactor.isPositive then .error (.badGrowthFactor c.growthFactor)
  else .ok ()

/-- Equality of configurations; the growth factors are compared as numbers. -/
def numEq (c d : Config) : Bool :=
  c.initialBlock == d.initialBlock && c.growth.numEq d.growth
    && c.retention == d.retention && c.fill == d.fill

end Config

end StackArena
