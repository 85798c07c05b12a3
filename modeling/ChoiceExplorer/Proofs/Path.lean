import ChoiceExplorer.Proofs.Calls

/-!
# Paths between runs

A path is the list of generators of a stack, oldest first.  A run may only
retire generators of its path and add new ones at the end.  Turning to the next
path advances the last generator that has more.  Both together move a path
forward in a lexicographic order, which is well-founded at bounded depth.
-/

namespace ChoiceExplorer

namespace Generator

/-- Two states of one generator, which its position and its retirement tell apart. -/
structure Same (before after : Generator) : Prop where
  id_eq : before.id = after.id
  alternatives_eq : before.alternatives = after.alternatives
  location_eq : before.location = after.location

theorem Same.trans {first second third : Generator} (before : first.Same second)
    (after : second.Same third) : first.Same third :=
  ⟨before.id_eq.trans after.id_eq, before.alternatives_eq.trans after.alternatives_eq,
    before.location_eq.trans after.location_eq⟩

/-- What a run may do to a generator that it finds on its path. -/
def Kept (before after : Generator) : Prop := after = before ∨ after = before.retire

namespace Kept

variable {first second third : Generator}

theorem refl (generator : Generator) : generator.Kept generator := .inl rfl

theorem trans (before : first.Kept second) (after : second.Kept third) : first.Kept third := by
  rcases after with rfl | rfl
  · exact before
  · rcases before with rfl | rfl
    · exact .inr rfl
    · exact .inr rfl

theorem same (kept : first.Kept second) : first.Same second := by
  rcases kept with rfl | rfl <;> exact ⟨rfl, rfl, rfl⟩

theorem taken_eq (kept : first.Kept second) : first.taken = second.taken := by
  rcases kept with rfl | rfl <;> rfl

theorem bare_eq (kept : first.Kept second) : first.bare = second.bare := by
  rcases kept with rfl | rfl <;> rfl

end Kept

end Generator

namespace Search

/-- A path goes on from another one, whose generators it keeps. -/
inductive Extends : List Generator → List Generator → Prop where
  | fresh (added : List Generator) : Extends [] added
  | keep {before after : Generator} {earlier later : List Generator}
      (kept : before.Kept after) (further : Extends earlier later) :
      Extends (before :: earlier) (after :: later)

namespace Extends

variable {first second third : List Generator}

theorem refl (path : List Generator) : Extends path path := by
  induction path with
  | nil => exact .fresh []
  | cons generator path ih => exact .keep (.refl generator) ih

theorem add (path added : List Generator) : Extends path (path ++ added) := by
  induction path with
  | nil => exact .fresh added
  | cons generator path ih => exact .keep (.refl generator) ih

theorem append_left (front : List Generator) (further : Extends first second) :
    Extends (front ++ first) (front ++ second) := by
  induction front with
  | nil => exact further
  | cons generator front ih => exact .keep (.refl generator) ih

theorem trans (before : Extends first second) (after : Extends second third) :
    Extends first third := by
  induction before generalizing third with
  | fresh added => exact .fresh third
  | keep kept _ ih =>
      cases after with
      | keep further after => exact .keep (kept.trans further) (ih after)

end Extends

/--
Two paths have the same generators at the same positions above a depth, and the
same generator at this depth, moved as a relation says.
-/
def AgreeTo (moved : Nat → Nat → Prop) : Nat → List Generator → List Generator → Prop
  | 0, before :: _, after :: _ => before.Same after ∧ moved before.taken after.taken
  | depth + 1, before :: earlier, after :: later =>
      before.Same after ∧ before.taken = after.taken ∧ AgreeTo moved depth earlier later
  | _, _, _ => False

namespace AgreeTo

variable {moved further both : Nat → Nat → Prop} {depth : Nat}
  {first second third : List Generator}

theorem length_lt (agree : AgreeTo moved depth first second) :
    depth < first.length ∧ depth < second.length := by
  induction depth generalizing first second with
  | zero =>
      match first, second, agree with
      | _ :: _, _ :: _, _ => exact ⟨Nat.succ_pos _, Nat.succ_pos _⟩
  | succ depth ih =>
      match first, second, agree with
      | _ :: _, _ :: _, ⟨_, _, agree⟩ =>
          exact ⟨Nat.succ_lt_succ (ih agree).1, Nat.succ_lt_succ (ih agree).2⟩

theorem mono (weaker : ∀ earlier later, moved earlier later → further earlier later)
    (agree : AgreeTo moved depth first second) : AgreeTo further depth first second := by
  induction depth generalizing first second with
  | zero =>
      match first, second, agree with
      | _ :: _, _ :: _, ⟨same, moves⟩ => exact ⟨same, weaker _ _ moves⟩
  | succ depth ih =>
      match first, second, agree with
      | _ :: _, _ :: _, ⟨same, stays, agree⟩ => exact ⟨same, stays, ih agree⟩

/-- Above the depth of their agreement two paths agree at every depth. -/
theorem of_lt {above : Nat} (lt : above < depth) (reflexive : ∀ count, further count count)
    (agree : AgreeTo moved depth first second) : AgreeTo further above first second := by
  induction depth generalizing above first second with
  | zero => exact absurd lt (Nat.not_lt_zero _)
  | succ depth ih =>
      match first, second, agree with
      | _ :: _, _ :: _, ⟨same, stays, agree⟩ =>
          cases above with
          | zero => exact ⟨same, stays ▸ reflexive _⟩
          | succ above => exact ⟨same, stays, ih (Nat.lt_of_succ_lt_succ lt) agree⟩

theorem trans (before : AgreeTo moved depth first second)
    (after : AgreeTo further depth second third)
    (compose : ∀ earlier between later, moved earlier between → further between later →
      both earlier later) :
    AgreeTo both depth first third := by
  induction depth generalizing first second third with
  | zero =>
      match first, second, third, before, after with
      | _ :: _, _ :: _, _ :: _, ⟨same, moves⟩, ⟨again, moves_again⟩ =>
          exact ⟨same.trans again, compose _ _ _ moves moves_again⟩
  | succ depth ih =>
      match first, second, third, before, after with
      | _ :: _, _ :: _, _ :: _, ⟨same, stays, before⟩, ⟨again, stays_again, after⟩ =>
          exact ⟨same.trans again, stays.trans stays_again, ih before after⟩

theorem self {path : List Generator} (reflexive : ∀ count, moved count count)
    (below : depth < path.length) : AgreeTo moved depth path path := by
  induction depth generalizing path with
  | zero =>
      match path, below with
      | _ :: _, _ => exact ⟨⟨rfl, rfl, rfl⟩, reflexive _⟩
  | succ depth ih =>
      match path, below with
      | _ :: _, below => exact ⟨⟨rfl, rfl, rfl⟩, rfl, ih (Nat.lt_of_succ_lt_succ below)⟩

/-- What two paths do at the depth of their agreement is determined. -/
theorem both_moves (agree : AgreeTo moved depth first second)
    (also : AgreeTo further depth first second) :
    ∃ earlier later, moved earlier later ∧ further earlier later := by
  induction depth generalizing first second with
  | zero =>
      match first, second, agree, also with
      | _ :: _, _ :: _, ⟨_, moves⟩, ⟨_, again⟩ => exact ⟨_, _, moves, again⟩
  | succ depth ih =>
      match first, second, agree, also with
      | _ :: _, _ :: _, ⟨_, _, agree⟩, ⟨_, _, also⟩ => exact ih agree also

/-- At the depth of their agreement two paths have one generator, moved as it says. -/
theorem exists_moved (agree : AgreeTo moved depth first second) :
    ∃ before after, first[depth]? = some before ∧ second[depth]? = some after ∧
      before.Same after ∧ moved before.taken after.taken := by
  induction depth generalizing first second with
  | zero =>
      match first, second, agree with
      | _ :: _, _ :: _, ⟨same, moves⟩ => exact ⟨_, _, rfl, rfl, same, moves⟩
  | succ depth ih =>
      match first, second, agree with
      | _ :: _, _ :: _, ⟨_, _, agree⟩ => exact ih agree

/-- Above the depth of their agreement two paths have one generator at one position. -/
theorem exists_kept {above : Nat} (lt : above < depth) (agree : AgreeTo moved depth first second) :
    ∃ before after, first[above]? = some before ∧ second[above]? = some after ∧
      before.Same after ∧ before.taken = after.taken :=
  exists_moved (agree.of_lt lt fun _ => rfl)

/-- The agreement of two paths is seen on their bare generators. -/
theorem bare (agree : AgreeTo moved depth first second) :
    AgreeTo moved depth (first.map Generator.bare) (second.map Generator.bare) := by
  induction depth generalizing first second with
  | zero =>
      match first, second, agree with
      | _ :: _, _ :: _, ⟨same, moves⟩ => exact ⟨⟨same.id_eq, same.alternatives_eq, rfl⟩, moves⟩
  | succ depth ih =>
      match first, second, agree with
      | _ :: _, _ :: _, ⟨same, stays, agree⟩ =>
          exact ⟨⟨same.id_eq, same.alternatives_eq, rfl⟩, stays, ih agree⟩

/-- A run keeps the agreement of the path it begins with. -/
theorem of_extends (before : AgreeTo moved depth first second) (after : Extends second third) :
    AgreeTo moved depth first third := by
  induction depth generalizing first second third with
  | zero =>
      match first, second, third, before, after with
      | _ :: _, _ :: _, _ :: _, ⟨same, moves⟩, .keep kept _ =>
          exact ⟨same.trans kept.same, kept.taken_eq ▸ moves⟩
  | succ depth ih =>
      match first, second, third, before, after with
      | _ :: _, _ :: _, _ :: _, ⟨same, stays, before⟩, .keep kept after =>
          exact ⟨same.trans kept.same, stays.trans kept.taken_eq, ih before after⟩

end AgreeTo

/-- Advance the last generator of a path that has more, and drop those after it. -/
def nextPath? : List Generator → Option (List Generator)
  | [] => none
  | oldest :: path =>
      match nextPath? path with
      | some next => some (oldest :: next)
      | none => if oldest.hasMore then some [oldest.advance] else none

theorem advanceNewest?_append_singleton (newer : List Generator) (oldest : Generator) :
    ChoiceStack.advanceNewest? (newer ++ [oldest]) =
      match ChoiceStack.advanceNewest? newer with
      | some next => some (next ++ [oldest])
      | none => if oldest.hasMore then some [oldest.advance] else none := by
  induction newer with
  | nil => rfl
  | cons newest newer ih =>
      by_cases more : newest.hasMore = true
      · simp [ChoiceStack.advanceNewest?, more]
      · simp only [List.cons_append, ChoiceStack.advanceNewest?, if_neg more]
        exact ih

theorem advanceNewest?_reverse (path : List Generator) :
    (ChoiceStack.advanceNewest? path.reverse).map List.reverse = nextPath? path := by
  induction path with
  | nil => rfl
  | cons oldest path ih =>
      rw [List.reverse_cons, advanceNewest?_append_singleton, nextPath?, ← ih]
      cases ChoiceStack.advanceNewest? path.reverse with
      | some next => simp
      | none => by_cases more : oldest.hasMore = true <;> simp [more]

/-- Turning to the next path, seen on the list of its generators. -/
theorem next?_toList (stack : ChoiceStack) :
    stack.next?.map ChoiceStack.toList = nextPath? stack.toList := by
  rw [← advanceNewest?_reverse, ChoiceStack.toList, List.reverse_reverse, ChoiceStack.next?,
    Option.map_map]
  rfl

/-- The next path parts from a path at its last generator, which has moved on. -/
theorem agreeTo_of_nextPath? {path next : List Generator} (found : nextPath? path = some next) :
    ∃ depth, AgreeTo (· < ·) depth path next ∧ next.length = depth + 1 := by
  induction path generalizing next with
  | nil => cases found
  | cons oldest path ih =>
      rw [nextPath?] at found
      split at found
      · rename_i rest deeper
        cases found
        obtain ⟨depth, agree, length⟩ := ih deeper
        exact ⟨depth + 1, ⟨⟨rfl, rfl, rfl⟩, rfl, agree⟩, congrArg (· + 1) length⟩
      · split at found
        · rename_i more
          cases found
          obtain ⟨id_eq, alternatives_eq, taken_eq, -, location_eq⟩ :=
            Generator.advance_of_hasMore more
          refine ⟨0, ⟨⟨id_eq.symm, alternatives_eq.symm, location_eq.symm⟩, ?_⟩, rfl⟩
          rw [taken_eq]
          exact Nat.lt_succ_self _
        · cases found

/-- The next path has generators of the path only, each at its place. -/
theorem same_of_nextPath? {path next : List Generator} (found : nextPath? path = some next)
    {place : Nat} {after : Generator} (there : next[place]? = some after) :
    ∃ before, path[place]? = some before ∧ before.Same after := by
  obtain ⟨depth, agree, length⟩ := agreeTo_of_nextPath? found
  have within : place < depth + 1 := length ▸ (List.getElem?_eq_some_iff.mp there).1
  have moved : ∃ before again, path[place]? = some before ∧ next[place]? = some again ∧
      before.Same again := by
    rcases Nat.lt_or_eq_of_le (Nat.le_of_lt_succ within) with above | rfl
    · obtain ⟨before, again, here, kept, same, -⟩ := agree.exists_kept above
      exact ⟨before, again, here, kept, same⟩
    · obtain ⟨before, again, here, kept, same, -⟩ := agree.exists_moved
      exact ⟨before, again, here, kept, same⟩
  obtain ⟨before, again, here, kept, same⟩ := moved
  cases there.symm.trans kept
  exact ⟨before, here, same⟩

def room : List Generator → Nat
  | [] => 0
  | oldest :: _ => oldest.alternatives.size - oldest.taken

/-- Paths cannot move forward for ever at bounded depth. -/
theorem wellFounded_agreeTo (bound : Nat) :
    WellFounded fun later earlier : List Generator =>
      ∃ depth, depth < bound ∧ AgreeTo (· < ·) depth earlier later := by
  induction bound with
  | zero => exact ⟨fun path => ⟨path, fun _ ⟨_, below, _⟩ => absurd below (Nat.not_lt_zero _)⟩⟩
  | succ bound ih =>
      have ordered := InvImage.wf (fun path : List Generator => (room path, path.tail))
        (Prod.lex Nat.lt_wfRel ⟨_, ih⟩).wf
      refine Subrelation.wf ?_ ordered
      intro later earlier moved
      obtain ⟨depth, below, agree⟩ := moved
      match depth, earlier, later, agree with
      | 0, before :: _, after :: _, ⟨same, moves⟩ =>
          refine Prod.Lex.left _ _ ?_
          show after.alternatives.size - after.taken < before.alternatives.size - before.taken
          have bounded := after.taken_le
          rw [← same.alternatives_eq] at bounded ⊢
          omega
      | depth + 1, before :: _, after :: _, ⟨same, stays, agree⟩ =>
          show Prod.Lex _ _ (after.alternatives.size - after.taken, _)
            (before.alternatives.size - before.taken, _)
          rw [same.alternatives_eq, stays]
          exact Prod.Lex.right _ ⟨depth, Nat.lt_of_succ_lt_succ below, agree⟩

end Search

end ChoiceExplorer
