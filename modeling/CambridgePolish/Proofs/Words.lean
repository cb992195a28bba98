import CambridgePolish.Token.Classify
import CambridgePolish.Proofs.Outcome

/-!
# Words and their tokens, one at a time

How a text that starts with a blank, a parenthesis or a whole word is cut into words
(`words_blank`, `words_paren`, `words_run`), and how the first word of a list becomes a token
(`Token.ofWords_cons_eq_ok_iff`). The word in front matters only in so far as it is an opening
parenthesis, or missing (`Token.ofWords_behind`).
-/

namespace CambridgePolish

variable {c : Char} {cs w rest : List Char} {column : Nat}

/-! ### Words -/

/-- **Nothing extends a word into the text**: it is empty, or it starts with a
character that no word goes on with. -/
def EndsWord (rest : List Char) : Prop :=
  rest.head?.any isWordChar = false

theorem isBlank_of_isWordChar (h : isWordChar c) : isBlank c = false := by
  rw [isWordChar, Bool.and_eq_true, Bool.not_eq_true'] at h
  exact h.1

theorem isParen_of_isWordChar (h : isWordChar c) : isParen c = false := by
  rw [isWordChar, Bool.and_eq_true, Bool.not_eq_true', Bool.not_eq_true'] at h
  exact h.2

theorem isWordChar_of_isParen (h : isParen c) : isWordChar c = false := by
  rw [isWordChar, h, Bool.not_true, Bool.and_false]

theorem words_blank (h : isBlank c) : words column (c :: cs) = words (column + 1) cs := by
  simp only [words, h, if_true]

theorem words_paren (hparen : isParen c) (hblank : isBlank c = false) :
    words column (c :: cs) = ⟨[c], column⟩ :: words (column + 1) cs := by
  simp [words, hblank, isWordChar_of_isParen hparen]

/-- **A whole word** in front of a text is its first word. -/
theorem words_run (hne : w ≠ []) (hw : ∀ c ∈ w, isWordChar c) (hrest : EndsWord rest) :
    words column (w ++ rest) = ⟨w, column⟩ :: words (column + w.length) rest := by
  induction w generalizing column with
  | nil => exact absurd rfl hne
  | cons c cs ih =>
    rw [List.forall_mem_cons] at hw
    have hblank := isBlank_of_isWordChar hw.1
    cases cs with
    | nil =>
      rw [List.singleton_append, words, hrest, Bool.and_false]
      simp [hblank]
    | cons d ds =>
      -- the next character belongs to the same word, which is found first and then extended
      have hd : ((d :: ds ++ rest).head?.any isWordChar) = true := hw.2 d List.mem_cons_self
      rw [List.cons_append, words, hw.1, hd, ih nofun hw.2, hblank]
      simp [extendFirst, Nat.add_assoc, Nat.add_comm 1]

/-! ### Tokens -/

/-- A word that starts like a number is one, whatever stands in front of it. -/
theorem Word.kind_of_startsNumeral {w : Word} (h : startsNumeral w.text) (previous : Option Kind) :
    w.kind previous = .ok (if '.' ∈ w.text then .float else .integer) := by
  unfold Word.kind
  rw [if_neg, if_neg, if_pos h]
  · intro hclose
    rw [hclose] at h
    exact absurd h (by decide)
  · intro hopen
    rw [hopen] at h
    exact absurd h (by decide)

namespace Token

/-- A list of words has tokens when the first word has a kind and the others have
tokens behind it. -/
theorem ofWords_cons_eq_ok_iff {previous : Option Kind} {w : Word} {ws : List Word}
    {ts : List Token} :
    (ofWords previous (w :: ws)).outcome = .ok ts ↔
      ∃ kind us, w.kind previous = .ok kind ∧ (ofWords (some kind) ws).outcome = .ok us ∧
        ts = ⟨kind, String.ofList w.text, w.column⟩ :: us := by
  simp only [ofWords, Traced.outcome_bind_eq_ok_iff, Traced.outcome_ofExcept,
    Traced.outcome_log_bind, Traced.outcome_map_eq_ok_iff]
  constructor
  · rintro ⟨kind, hkind, us, hus, rfl⟩
    exact ⟨kind, us, hkind, hus, rfl⟩
  · rintro ⟨kind, us, hkind, hus, rfl⟩
    exact ⟨kind, hkind, us, hus, rfl⟩

/-- Behind a word that is not an opening parenthesis, it does not matter which word it is. -/
theorem ofWords_behind {kind : Kind} (hkind : kind ≠ .groupOpen) (ws : List Word) :
    ofWords (some kind) ws = ofWords (some .name) ws := by
  cases ws with
  | nil => rfl
  | cons w ws =>
    have h : w.kind (some kind) = w.kind (some .name) := by
      cases kind with
      | groupOpen => exact absurd rfl hkind
      | _ => rfl
    rw [ofWords, ofWords, h]

end Token

end CambridgePolish
