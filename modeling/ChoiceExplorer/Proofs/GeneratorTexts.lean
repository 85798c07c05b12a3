import Mathlib
import ChoiceExplorer.Proofs.Offers

/-!
# Texts of generators

The text of a generator shows its position: in a list by a mark before the current
value, for threads by the number taken, and in an interval by the term reached, which
before the start is the one ahead of the first.  No text of a value holds the mark, so
generators with the same alternatives and the same text stand at the same position.
-/

namespace ChoiceExplorer

/-- A text in which the mark of the current value does not occur. -/
def Unmarked (chars : List Char) : Prop := '>' ∉ chars

instance (chars : List Char) : Decidable (Unmarked chars) :=
  inferInstanceAs (Decidable ('>' ∉ chars))

namespace Unmarked

variable {first second : List Char}

@[simp] theorem append_iff : Unmarked (first ++ second) ↔ Unmarked first ∧ Unmarked second := by
  simp only [Unmarked, List.mem_append, not_or]

@[simp] theorem cons_iff {char : Char} {chars : List Char} :
    Unmarked (char :: chars) ↔ char ≠ '>' ∧ Unmarked chars := by
  simp only [Unmarked, List.mem_cons, not_or, ne_eq, eq_comm]

@[simp] theorem nil : Unmarked [] := List.not_mem_nil

theorem of_subset (unmarked : Unmarked second) (subset : ∀ char ∈ first, char ∈ second) :
    Unmarked first :=
  fun marked => unmarked (subset _ marked)

theorem take (unmarked : Unmarked first) (count : Nat) : Unmarked (first.take count) :=
  unmarked.of_subset fun _ => List.mem_of_mem_take

theorem drop (unmarked : Unmarked first) (count : Nat) : Unmarked (first.drop count) :=
  unmarked.of_subset fun _ => List.mem_of_mem_drop

theorem digits (number : Nat) : Unmarked (Nat.toDigits 10 number) := by
  intro marked
  have digit := Nat.isDigit_of_mem_toDigits (by decide) (by decide) marked
  exact absurd digit (by decide)

theorem int (number : Int) : Unmarked (toString number).toList := by
  rw [Int.toString_eq_repr, Int.repr_eq_if]
  split
  · rw [Nat.repr_eq_ofList_toDigits, String.toList_ofList]
    exact digits _
  · rw [Nat.repr_eq_ofList_toDigits, String.toList_append, append_iff]
    refine ⟨by decide, ?_⟩
    rw [String.toList_ofList]
    exact digits _

end Unmarked

namespace Floating.Layout

theorem unmarked_zeros (count : Nat) : Unmarked (zeros count) := by
  intro marked
  exact absurd (List.eq_of_mem_replicate marked) (by decide)

theorem unmarked_significant (decimal : Decimal) : Unmarked (significant decimal) := by
  refine (Unmarked.digits decimal.digits).of_subset fun char member => ?_
  rw [significant, List.mem_reverse] at member
  exact List.mem_reverse.mp ((List.dropWhile_sublist _).subset member)

theorem unmarked_plain {digits : List Char} (unmarked : Unmarked digits) (leading : Int) :
    Unmarked (plain digits leading) := by
  unfold plain
  split
  · simp [unmarked_zeros, unmarked]
  · simp only [Unmarked.append_iff, Unmarked.cons_iff]
    refine ⟨⟨unmarked.take _, unmarked_zeros _⟩, by decide, ?_⟩
    split
    · decide
    · exact unmarked.drop _

theorem unmarked_scientific {digits : List Char} (unmarked : Unmarked digits) (leading : Int) :
    Unmarked (Value.layout.scientific digits leading) := by
  have exponent : Unmarked (if leading < 0 then (toString leading).toList
      else Value.layout.positive.toList ++ (toString leading).toList) := by
    split
    · exact .int leading
    · exact .int leading
  unfold scientific
  rw [Unmarked.append_iff, Unmarked.cons_iff]
  refine ⟨?_, by decide, exponent⟩
  split
  · simpa using unmarked
  · exact unmarked

theorem unmarked_text (format : Format) (bits : Nat) :
    Unmarked (Value.layout.text format bits).toList := by
  unfold text
  split
  · decide
  · decide
  · decide
  · rename_i negative mantissa exponent _
    rw [String.toList_ofList, Unmarked.append_iff]
    constructor
    · cases negative
      · decide
      · decide
    · split
      · decide
      · simp only [ofDecimal]
        split
        · exact unmarked_plain (unmarked_significant _) _
        · exact unmarked_scientific (unmarked_significant _) _

end Floating.Layout

/-- No text of a value but that of a thread can hold the mark. -/
theorem Value.unmarked_text {value : Value} (threadless : ∀ thread, value ≠ .thread thread) :
    Unmarked value.text.toList := by
  cases value with
  | bool truth =>
      cases truth
      · decide
      · decide
  | int number => exact .int number
  | long number => exact .int number
  | float number => exact Floating.Layout.unmarked_text _ _
  | double number => exact Floating.Layout.unmarked_text _ _
  | thread thread => exact absurd rfl (threadless thread)

namespace Generator

/-- The mark stands before the first of some texts or among the others. -/
theorem marked_cons (taken : Nat) (text : String) (rest : List String) :
    marked taken (text :: rest) =
      (if taken = 1 then ">" ++ text else text) ++
        if rest = [] then "" else "," ++ marked (taken - 1) rest := by
  have shifted : (fun position (text : String) =>
      if position + 1 + 1 = taken then ">" ++ text else text) =
        fun position text => if position + 1 = taken - 1 then ">" ++ text else text := by
    funext position text
    simp only [show position + 1 + 1 = taken ↔ position + 1 = taken - 1 by omega]
  have first : (0 + 1 = taken) = (taken = 1) := propext ⟨Eq.symm, Eq.symm⟩
  rw [marked, List.mapIdx_cons, shifted]
  simp only [first]
  cases rest with
  | nil => simp
  | cons next rest =>
      rw [String.intercalate_cons_of_ne_nil (by simp), if_neg (List.cons_ne_nil next rest), marked,
        String.append_assoc]

/-- A mark cannot be taken for the beginning of an unmarked text. -/
theorem mark_ne {text : String} (unmarked : Unmarked text.toList) {tail : String}
    (plain : tail.toList.head? ≠ some '>') (more : String) :
    ">" ++ text ++ more ≠ text ++ tail := by
  intro same
  have heads := congrArg (fun text => text.toList.head?) same
  simp only [String.toList_append, List.append_assoc, List.head?_append] at heads
  cases chars : text.toList with
  | nil =>
      rw [chars] at heads
      exact plain heads.symm
  | cons char rest =>
      rw [chars] at heads unmarked
      exact (Unmarked.cons_iff.mp unmarked).1 (Option.some.inj heads).symm

/-- Where the mark stands, or that it is missing, is seen on unmarked texts. -/
theorem marked_injective {texts : List String} (unmarked : ∀ text ∈ texts, Unmarked text.toList)
    {first second : Nat} (first_le : first ≤ texts.length) (second_le : second ≤ texts.length)
    (same : marked first texts = marked second texts) : first = second := by
  induction texts generalizing first second with
  | nil => exact (Nat.le_zero.mp first_le).trans (Nat.le_zero.mp second_le).symm
  | cons text rest ih =>
      obtain ⟨here, further⟩ := List.forall_mem_cons.mp unmarked
      have plain (taken : Nat) :
          (if rest = [] then "" else "," ++ marked taken rest).toList.head? ≠ some '>' := by
        split
        · decide
        · rw [String.toList_append, List.head?_append]
          exact (by decide : some ',' ≠ some '>')
      rw [marked_cons, marked_cons] at same
      -- The first place at which the two marks differ shows it: only one text begins with a mark.
      rcases Decidable.em (first = 1) with rfl | first_ne
      · rcases Decidable.em (second = 1) with rfl | second_ne
        · rfl
        · rw [if_pos rfl, if_neg second_ne] at same
          exact absurd same (mark_ne here (plain _) _)
      · rcases Decidable.em (second = 1) with rfl | second_ne
        · rw [if_neg first_ne, if_pos rfl] at same
          exact absurd same.symm (mark_ne here (plain _) _)
        · rw [if_neg first_ne, if_neg second_ne, String.append_right_inj] at same
          rw [List.length_cons] at first_le second_le
          by_cases alone : rest = []
          · rw [alone, List.length_nil] at first_le second_le
            omega
          · rw [if_neg alone, if_neg alone, String.append_right_inj] at same
            have before := ih further (by omega) (by omega) same
            omega

/-- The text of a generator determines its position among its alternatives. -/
theorem taken_eq_of_text {first second : Generator} (id_eq : first.id = second.id)
    (alternatives_eq : first.alternatives = second.alternatives)
    (text_eq : first.text = second.text) : first.taken = second.taken := by
  obtain ⟨id, alternatives, taken, retired, location, taken_le⟩ := first
  obtain ⟨_, _, other, _, _, other_le⟩ := second
  cases id_eq
  cases alternatives_eq
  rw [text, text, String.append_right_inj] at text_eq
  have listed (texts : List String) (length_eq : texts.length = alternatives.size)
      (unmarked : ∀ text ∈ texts, Unmarked text.toList)
      (same : marked taken texts = marked other texts) : taken = other :=
    marked_injective unmarked (length_eq ▸ taken_le) (length_eq ▸ other_le) same
  have valued (threadless : alternatives.kind ≠ .threadSet)
      (same : marked taken (alternatives.toList.map Value.text) =
        marked other (alternatives.toList.map Value.text)) : taken = other := by
    refine listed _ (by rw [List.length_map, Alternatives.length_toList]) ?_ same
    intro text member
    obtain ⟨value, offered, rfl⟩ := List.mem_map.mp member
    refine Value.unmarked_text ?_
    rintro thread rfl
    exact threadless (Kind.yields_thread_iff.mp (Alternatives.offers_of_mem offered).yields)
  cases alternatives with
  | booleans =>
      simp only [shortText, kind, String.append_left_inj, String.append_right_inj] at text_eq
      exact listed ["false", "true"] rfl (by decide) text_eq
  | interval bounds =>
      simp only [shortText, kind, String.append_left_inj, String.append_right_inj] at text_eq
      rw [Int.toString_eq_repr, Int.toString_eq_repr, Int.repr_inj] at text_eq
      have walked : (taken - 1 : Int) * bounds.step = (other - 1) * bounds.step :=
        Int.add_left_cancel text_eq
      have before := Int.eq_of_mul_eq_mul_right bounds.step_ne_zero walked
      show taken = other
      omega
  | threads members =>
      simp only [shortText, kind, String.append_left_inj, String.append_right_inj] at text_eq
      exact Nat.repr_injective text_eq
  | ints _ | longs _ | doubles _ | floats _ =>
      simp only [shortText, kind, String.append_left_inj, String.append_right_inj] at text_eq
      refine valued ?_ text_eq
      intro same
      cases same

end Generator

end ChoiceExplorer
