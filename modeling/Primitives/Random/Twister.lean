/-!
# The Mersenne twister

The generator keeps 624 words of 32 bits and a position in them. When all words are used up they are
regenerated in place, each from its own upper bit, the lower bits of the next word and the word 397
places further, where places behind the end continue with the new words at the front. Each word is
tempered before it is given out.

## Main definitions

* `Twister`: the state of the generator.
* `Twister.schedule`, `Twister.seeded`: the words and the state for a seed.
* `Twister.regenerate`: the next 624 words.
* `Twister.next`: the next output.
-/

namespace Primitives

/-- The number of words of the generator. -/
abbrev wordCount : Nat := 624

/-- The words of the generator and the position of the next one to be given out. -/
structure Twister where
  words : Vector UInt32 wordCount
  position : Nat
  position_le : position ≤ wordCount

namespace Twister

/-! ### Seeding -/

/-- The word at index `i` of the schedule, from the word before it. -/
def scheduleStep (previous : UInt32) (i : Nat) : UInt32 :=
  (1812433253 : UInt32) * (previous ^^^ (previous >>> 30)) + UInt32.ofNat i

/-- Replaces the word behind index `i` by the one that the schedule puts there. -/
def scheduleAt (words : Vector UInt32 wordCount) (i : Fin (wordCount - 1)) :
    Vector UInt32 wordCount :=
  have h : i.val + 1 < wordCount := by omega
  words.set (i.val + 1) (scheduleStep (words.get ⟨i.val, by omega⟩) (i.val + 1)) h

/-- The words that a seed starts with. -/
def schedule (seed : UInt32) : Vector UInt32 wordCount :=
  (List.finRange (wordCount - 1)).foldl scheduleAt (Vector.replicate wordCount seed)

/-- The state for a seed; its words are regenerated before the first output. -/
def seeded (seed : UInt32) : Twister :=
  ⟨schedule seed, wordCount, Nat.le_refl _⟩

/-! ### Regeneration -/

/-- The twist of the upper bit of one word and the lower bits of the next. -/
def twist (upper lower : UInt32) : UInt32 :=
  let y := (upper &&& 0x80000000) ||| (lower &&& 0x7fffffff)
  (y >>> 1) ^^^ (if y &&& 1 = 1 then 0x9908b0df else 0)

/-- Replaces the word at one place. -/
def regenerateAt (words : Vector UInt32 wordCount) (k : Fin wordCount) :
    Vector UInt32 wordCount :=
  words.set k (words[k + (397 : Fin wordCount)] ^^^ twist words[k] words[k + (1 : Fin wordCount)])

/-- Replaces all words in place, from the front. -/
def regenerate (words : Vector UInt32 wordCount) : Vector UInt32 wordCount :=
  (List.finRange wordCount).foldl regenerateAt words

/-! ### Output -/

/-- The bit mixing that a word undergoes before it is given out. -/
def temper (y : UInt32) : UInt32 :=
  let y := y ^^^ (y >>> 11)
  let y := y ^^^ ((y <<< 7) &&& 0x9d2c5680)
  let y := y ^^^ ((y <<< 15) &&& 0xefc60000)
  y ^^^ (y >>> 18)

/-- The next output and the state afterwards. -/
def next (t : Twister) : UInt32 × Twister :=
  if h : t.position < wordCount then
    (temper t.words[t.position], ⟨t.words, t.position + 1, h⟩)
  else
    let words := regenerate t.words
    (temper words[0], ⟨words, 1, by decide⟩)

end Twister

end Primitives
