import MeshSecurity.Random.SeedStream

/-!
# Generators

A xorshift register and a source that repeats one word are predictable and serve where a run has to
be repeated. A generator is one of them, a seeded stream, or a source that fails.
-/

namespace MeshSecurity

/-- The bytes of `n` requested bytes when words are produced one after the other, each with its
least significant byte first; the last word may be used in part. -/
def fillByWords {σ : Type} (next : σ → UInt32 × σ) (n : Nat) (s : σ) : Bytes n × σ :=
  let rec words : Nat → σ → List UInt32 × σ
    | 0, s => ([], s)
    | k + 1, s =>
      let (w, s) := next s
      let (ws, s) := words k s
      (w :: ws, s)
  let (ws, s) := words ((n + 3) / 4) s
  (Bytes.padded n (ws.flatMap fun w => littleEndian 4 w.toNat), s)

/-- A 64-bit xorshift register. -/
structure Xorshift where
  register : UInt64
deriving DecidableEq

namespace Xorshift

/-- The register for a seed. Zero would never change, so it is replaced. -/
def ofSeed (seed : UInt64) : Xorshift := ⟨if seed = 0 then 0x9E3779B97F4A7C15 else seed⟩

def advance (x : UInt64) : UInt64 :=
  let x := x ^^^ x <<< 13
  let x := x ^^^ x >>> 7
  x ^^^ x <<< 17

/-- The next word is the high half of the next register. -/
def next (s : Xorshift) : UInt32 × Xorshift :=
  let x := advance s.register
  ((x >>> 32).toUInt32, ⟨x⟩)

instance : RandomSource Xorshift where
  fill n s :=
    let (bytes, s) := fillByWords next n s
    (some bytes, s)

end Xorshift

/-- A source that repeats one word. -/
structure ConstantWord where
  word : UInt32
deriving DecidableEq

instance : RandomSource ConstantWord where
  fill n s := (some (fillByWords (fun s : ConstantWord => (s.word, s)) n s).1, s)

/-- One of the sources of this library, or one that always fails. -/
inductive Generator
  | seeded (stream : SeedStream)
  | xorshift (register : Xorshift)
  | constant (word : ConstantWord)
  | dead

namespace Generator

instance : RandomSource Generator where
  fill n
    | seeded s => (RandomSource.fill n s).map id seeded
    | xorshift s => (RandomSource.fill n s).map id xorshift
    | constant s => (RandomSource.fill n s).map id constant
    | dead => (none, dead)

/-- The blocks produced so far, for a seeded stream. -/
def blocks? : Generator → Option UInt64
  | seeded s => some s.blocks
  | _ => none

end Generator

end MeshSecurity
