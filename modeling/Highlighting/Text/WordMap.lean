/-
  Highlighting/Text/WordMap.lean
  ==============================
  **Finite maps from words**, shaped as a tree of letters.

  Words that share their first letters share a path, so that a look-up
  compares each letter of the word with the few letters that can stand in its
  place, however many words there are.
-/

namespace Highlighting

/-- A word is the list of its characters. -/
abbrev Word := List Char

inductive WordMap (α : Type) where
  | nil
  /-- The word that ends here, and `others`. -/
  | stop (value : α) (others : WordMap α)
  /-- The words that go on with the letter, and `others`. -/
  | step (letter : Char) (longer others : WordMap α)
  deriving Repr, Inhabited

namespace WordMap

variable {α : Type}

def single (value : α) : Word → WordMap α
  | [] => stop value nil
  | c :: w => step c (single value w) nil

def find? : WordMap α → Word → Option α
  | nil, _ => none
  | stop value _, [] => some value
  | stop _ others, c :: w => others.find? (c :: w)
  | step _ _ others, [] => others.find? []
  | step letter longer others, c :: w =>
    if letter = c then longer.find? w else others.find? (c :: w)

/-- Gives a word a value, in place of one that it had. -/
def insert (value : α) : WordMap α → Word → WordMap α
  | nil, w => single value w
  | stop _ others, [] => stop value others
  | stop old others, c :: w => stop old (others.insert value (c :: w))
  | step letter longer others, [] => step letter longer (others.insert value [])
  | step letter longer others, c :: w =>
    if letter = c then step letter (longer.insert value w) others
    else step letter longer (others.insert value (c :: w))

def size : WordMap α → Nat
  | nil => 0
  | stop _ others => others.size + 1
  | step _ longer others => longer.size + others.size

/-! ### What the operations do to look-ups -/

theorem find?_single (value : α) (w v : Word) :
    (single value w).find? v = if w = v then some value else none := by
  induction w generalizing v with
  | nil => cases v <;> simp [single, find?]
  | cons c w ih =>
    cases v with
    | nil => simp [single, find?]
    | cons d v => by_cases h : c = d <;> simp [single, find?, h, ih]

/-- After an insertion the word has its new value, and all others have what they had. -/
theorem find?_insert (value : α) (m : WordMap α) (w v : Word) :
    (m.insert value w).find? v = if w = v then some value else m.find? v := by
  induction m generalizing w v with
  | nil => simp [insert, find?_single, find?]
  | stop old others ih =>
    cases w <;> cases v <;> simp [insert, find?, ih]
  | step letter longer others ihl iho =>
    cases w with
    | nil => cases v <;> simp [insert, find?, iho]
    | cons c w =>
      by_cases h : letter = c
      · cases v with
        | nil => simp [insert, find?, h]
        | cons d v => by_cases hd : c = d <;> simp [insert, find?, h, ihl, hd]
      · cases v with
        | nil => simp [insert, find?, h, iho]
        | cons d v =>
          by_cases hd : letter = d
          · subst hd
            simp [insert, find?, h, Ne.symm h]
          · simp [insert, find?, h, iho, hd]

end WordMap

end Highlighting
