/-
A shown predicate tells which predicate it is.

Predicates are shown on one line or spread over lines. Permission ids are free texts and may
hold anything that a shown predicate consists of, whole shown predicates included; but they
are quoted, and a quoted text ends where it ends. What is proved is stronger than that equal
texts come from equal trees: a tree that is shown at the front of a text can be told from the
text, and so can what follows it (`shape_append_inj`). That is what the induction on the tree
needs, for every part of a tree is followed by something.

# Two forms, one argument

The two forms differ only in what is put around the parts of a tuple or list: a `Spacing`.
Of a spacing two things are used (`Spacing.Clear`): what comes between two parts is not what
comes before a closing bracket, so that one sees whether a part follows, and a part does not
begin like a closing bracket, so that one sees whether there is any.
-/
import ProjectAccess.Proofs.Predicate.Normal
import ProjectAccess.Proofs.Text.Quoted

namespace ProjectAccess

-- ============================================================= spacings

namespace Shape

/-- What is put around the parts of a tuple or list at a depth: in front of the first,
between two of them, and after the last. -/
structure Spacing where
  first : ℕ → List Char
  between : ℕ → List Char
  last : ℕ → List Char

namespace Spacing

/-- Parts with what is put around them. Where there are none, nothing is put. -/
def frame (spacing : Spacing) (depth : ℕ) : List (List Char) → List Char
  | [] => []
  | part :: parts =>
    spacing.first depth
      ++ (part ++ (parts.flatMap (spacing.between depth ++ ·) ++ spacing.last depth))

/-- Parts on one line. -/
def tight : Spacing := ⟨fun _ => [], fun _ => divider, fun _ => []⟩

/-- Parts on lines of their own, each with a comma after it. -/
def wide : Spacing where
  first depth := newLine (depth + 1)
  between depth := ',' :: newLine (depth + 1)
  last depth := ',' :: newLine depth

/-- Shapes are drawn with the spacing. -/
structure Draws (spacing : Spacing) (draw : ℕ → Shape → List Char) : Prop where
  word : ∀ depth text, draw depth (.word text) = text.toList
  tuple : ∀ depth name part parts, draw depth (.tuple name (part :: parts))
    = name.toList
      ++ '(' :: (spacing.frame depth ((part :: parts).map (draw (depth + 1))) ++ [')'])
  list : ∀ depth parts, draw depth (.list parts)
    = '[' :: (spacing.frame depth (parts.map (draw (depth + 1))) ++ [']'])

/-- One sees of a list whether a part follows. -/
structure Clear (spacing : Spacing) : Prop where
  first_append_ne : ∀ depth c r s, c ≠ ']' → spacing.first depth ++ c :: r ≠ ']' :: s
  between_append_ne : ∀ depth r s,
    spacing.between depth ++ r ≠ spacing.last depth ++ ']' :: s

-- ====================================================== the two forms

theorem inlineParts_eq_frame (depth : ℕ) (parts : List Shape) :
    inlineParts parts = tight.frame depth (parts.map inline) := by
  cases parts with
  | nil => rfl
  | cons part parts =>
      induction parts generalizing part with
      | nil => simp [inlineParts, frame, tight]
      | cons next parts ih =>
          rw [inlineParts, ih next]
          · simp [frame, tight]
          · exact List.cons_ne_nil next parts

theorem draws_tight : tight.Draws fun _ => inline where
  word _ _ := by rw [inline]
  tuple depth name part parts := by rw [inline, inlineParts_eq_frame depth]
  list depth parts := by rw [inline, inlineParts_eq_frame depth]

theorem spreadParts_eq_frame (depth : ℕ) (part : Shape) (parts : List Shape) :
    spreadParts (depth + 1) (part :: parts) ++ newLine depth
      = wide.frame depth ((part :: parts).map (spread (depth + 1))) := by
  induction parts generalizing part with
  | nil => simp [spreadParts, frame, wide]
  | cons next parts ih =>
      rw [spreadParts, List.append_assoc, List.append_assoc, List.cons_append, ih next]
      simp [frame, wide]

theorem draws_wide : wide.Draws spread where
  word _ _ := by rw [spread]
  tuple depth name part parts := by rw [spread, spreadParts_eq_frame]
  list depth parts := by
    cases parts with
    | nil => rw [spread]; rfl
    | cons part parts => rw [spread, spreadParts_eq_frame]

theorem clear_tight : tight.Clear where
  first_append_ne depth c r s hc h := hc (List.cons.inj h).1
  between_append_ne depth r s h := by simp [tight, divider] at h

theorem clear_wide : wide.Clear where
  first_append_ne depth c r s _ h := by simp [wide, newLine] at h
  between_append_ne depth r s h := by
    -- after the blanks that both begin with, there is a blank against a bracket
    have hblanks : List.replicate (4 * (depth + 1)) ' '
        = List.replicate (4 * depth) ' ' ++ [' ', ' ', ' ', ' '] := by
      rw [Nat.mul_add, ← List.replicate_append_replicate]
      rfl
    simp [wide, newLine, hblanks] at h

-- =============================================================== parts

variable {spacing : Spacing} {draw : ℕ → Shape → List Char} {depth : ℕ} {r s : List Char}

/-- Of parts that are told apart from the front of a text, a whole list is. -/
theorem Clear.frame_append_inj {α : Type} {f : α → List Char} {as bs : List α}
    (hclear : spacing.Clear) (hstart : ∀ a, ∃ c cs, f a = c :: cs ∧ c ≠ ']')
    (hinj : ∀ a ∈ as, ∀ b r s, f a ++ r = f b ++ s → a = b ∧ r = s)
    (h : spacing.frame depth (as.map f) ++ ']' :: r
      = spacing.frame depth (bs.map f) ++ ']' :: s) : as = bs ∧ r = s := by
  have hstops : ∀ a parts t u,
      spacing.frame depth (f a :: parts) ++ ']' :: t ≠ ']' :: u := by
    intro a parts t u heq
    obtain ⟨c, cs, hc, hne⟩ := hstart a
    rw [frame, hc, List.append_assoc] at heq
    exact hclear.first_append_ne depth c _ u hne heq
  -- the parts after the first, each with what is put between
  have hmore : ∀ {as bs : List α}, (∀ a ∈ as, ∀ b r s, f a ++ r = f b ++ s → a = b ∧ r = s) →
      (as.map f).flatMap (spacing.between depth ++ ·) ++ (spacing.last depth ++ ']' :: r)
        = (bs.map f).flatMap (spacing.between depth ++ ·) ++ (spacing.last depth ++ ']' :: s) →
      as = bs ∧ r = s := by
    intro as
    induction as with
    | nil =>
        intro bs _ h
        cases bs with
        | nil =>
            have hrest : ']' :: r = ']' :: s := List.append_cancel_left h
            exact ⟨rfl, (List.cons.inj hrest).2⟩
        | cons b bs =>
            rw [List.map_cons, List.flatMap_cons, List.append_assoc, List.append_assoc] at h
            exact absurd h.symm (hclear.between_append_ne _ _ _)
    | cons a as ih =>
        intro bs hinj h
        cases bs with
        | nil =>
            rw [List.map_cons, List.flatMap_cons, List.append_assoc, List.append_assoc] at h
            exact absurd h (hclear.between_append_ne _ _ _)
        | cons b bs =>
            simp only [List.map_cons, List.flatMap_cons, List.append_assoc] at h
            obtain ⟨rfl, hrest⟩ :=
              hinj a List.mem_cons_self b _ _ (List.append_cancel_left h)
            obtain ⟨rfl, rfl⟩ := ih (fun a ha => hinj a (List.mem_cons_of_mem _ ha)) hrest
            exact ⟨rfl, rfl⟩
  cases as with
  | nil =>
      cases bs with
      | nil => exact ⟨rfl, (List.cons.inj h).2⟩
      | cons b bs => exact absurd h.symm (hstops b _ s r)
  | cons a as =>
      cases bs with
      | nil => exact absurd h (hstops a _ r s)
      | cons b bs =>
          simp only [List.map_cons, frame, List.append_assoc] at h
          obtain ⟨rfl, hrest⟩ := hinj a List.mem_cons_self b _ _ (List.append_cancel_left h)
          obtain ⟨rfl, rfl⟩ := hmore (fun a ha => hinj a (List.mem_cons_of_mem _ ha)) hrest
          exact ⟨rfl, rfl⟩

/-- Of a part that is told from the front of a text, the tuple of it is. -/
theorem Draws.tuple_append_inj (hdraws : spacing.Draws draw) {name : String} {x y : Shape}
    (h : draw depth (.tuple name [x]) ++ r = draw depth (.tuple name [y]) ++ s) :
    ∃ t u, draw (depth + 1) x ++ t = draw (depth + 1) y ++ u ∧ (t = u → r = s) := by
  rw [hdraws.tuple, hdraws.tuple] at h
  simp only [List.map_cons, List.map_nil, frame, List.flatMap_nil, List.nil_append,
    List.append_assoc, List.cons_append] at h
  have hparts := List.append_cancel_left (List.cons.inj (List.append_cancel_left h)).2
  refine ⟨_, _, hparts, fun htails => ?_⟩
  exact (List.cons.inj (List.append_cancel_left htails)).2

end Spacing

end Shape

-- ============================================================ predicates

namespace Predicate

open Shape (Spacing)

variable {spacing : Spacing} {draw : ℕ → Shape → List Char} {depth : ℕ} {r s : List Char}
variable {p q : Predicate} {ps qs : List Predicate}

theorem shapes_eq_map : shapes ps = ps.map shape := by
  induction ps with
  | nil => rfl
  | cons p ps ih => rw [shapes, ih, List.map_cons]

theorem CheckFree.of_mem_all (h : (all ps).CheckFree) (hp : p ∈ ps) : p.CheckFree :=
  fun check hcheck => h check (mem_leavesOf.2 ⟨p, hp, hcheck⟩)

theorem CheckFree.of_mem_any (h : (any ps).CheckFree) (hp : p ∈ ps) : p.CheckFree :=
  fun check hcheck => h check (mem_leavesOf.2 ⟨p, hp, hcheck⟩)

/-- A predicate is not shown like a closing bracket. -/
theorem exists_shape_eq_cons (hdraws : spacing.Draws draw) (p : Predicate) :
    ∃ c cs, draw depth p.shape = c :: cs ∧ c ≠ ']' := by
  cases p <;> simp [shape, hdraws.word, hdraws.tuple, String.toList_append]

/-- Of members that are told from the front of a text, the list of them is. -/
theorem shapes_append_inj (hdraws : spacing.Draws draw) (hclear : spacing.Clear)
    (hinj : ∀ p ∈ ps, ∀ q r s,
      draw (depth + 1) p.shape ++ r = draw (depth + 1) q.shape ++ s → p = q ∧ r = s)
    (h : draw depth (.list (shapes ps)) ++ r = draw depth (.list (shapes qs)) ++ s) :
    ps = qs ∧ r = s := by
  rw [hdraws.list, hdraws.list, shapes_eq_map, shapes_eq_map, List.map_map, List.map_map,
    List.cons_append, List.cons_append, List.append_assoc, List.append_assoc] at h
  exact hclear.frame_append_inj (fun p => exists_shape_eq_cons hdraws p) hinj (List.cons.inj h).2

/-- A tree without checks that is shown at the front of a text is told by the text, and so
is what follows. -/
theorem shape_append_inj (hdraws : spacing.Draws draw) (hclear : spacing.Clear)
    (hfree : p.CheckFree) (h : draw depth p.shape ++ r = draw depth q.shape ++ s) :
    p = q ∧ r = s := by
  induction p generalizing q depth r s with
  | allowAny =>
      cases q with
      | allowAny => exact ⟨rfl, List.append_cancel_left h⟩
      | _ => simp [shape, hdraws.word, hdraws.tuple, String.toList_append] at h
  | isAuthenticated =>
      cases q with
      | isAuthenticated => exact ⟨rfl, List.append_cancel_left h⟩
      | _ => simp [shape, hdraws.word, hdraws.tuple, String.toList_append] at h
  | isAnonymous =>
      cases q with
      | isAnonymous => exact ⟨rfl, List.append_cancel_left h⟩
      | _ => simp [shape, hdraws.word, hdraws.tuple, String.toList_append] at h
  | isProjectOwner =>
      cases q with
      | isProjectOwner => exact ⟨rfl, List.append_cancel_left h⟩
      | _ => simp [shape, hdraws.word, hdraws.tuple, String.toList_append] at h
  | isProjectMember =>
      cases q with
      | isProjectMember => exact ⟨rfl, List.append_cancel_left h⟩
      | _ => simp [shape, hdraws.word, hdraws.tuple, String.toList_append] at h
  | hasPermission id =>
      cases q with
      | hasPermission id' =>
          simp only [shape, hdraws.word, String.toList_append, List.append_assoc] at h
          obtain ⟨rfl, hrest⟩ := Text.quoted_append_inj (List.append_cancel_left h)
          exact ⟨rfl, List.append_cancel_left hrest⟩
      | _ => simp [shape, hdraws.word, hdraws.tuple, String.toList_append] at h
  | not of ih =>
      cases q with
      | not of' =>
          obtain ⟨t, u, hparts, htails⟩ := hdraws.tuple_append_inj h
          obtain ⟨rfl, hrest⟩ := ih hfree hparts
          exact ⟨rfl, htails hrest⟩
      | _ => simp [shape, hdraws.word, hdraws.tuple, String.toList_append] at h
  | all ps ih =>
      cases q with
      | all qs =>
          obtain ⟨t, u, hparts, htails⟩ := hdraws.tuple_append_inj h
          obtain ⟨rfl, hrest⟩ := shapes_append_inj hdraws hclear
            (fun p hp q r s => ih p hp (hfree.of_mem_all hp)) hparts
          exact ⟨rfl, htails hrest⟩
      | _ => simp [shape, hdraws.word, hdraws.tuple, String.toList_append] at h
  | any ps ih =>
      cases q with
      | any qs =>
          obtain ⟨t, u, hparts, htails⟩ := hdraws.tuple_append_inj h
          obtain ⟨rfl, hrest⟩ := shapes_append_inj hdraws hclear
            (fun p hp q r s => ih p hp (hfree.of_mem_any hp)) hparts
          exact ⟨rfl, htails hrest⟩
      | _ => simp [shape, hdraws.word, hdraws.tuple, String.toList_append] at h
  | custom check => exact absurd List.mem_cons_self (hfree check)

theorem eq_of_draw_eq (hdraws : spacing.Draws draw) (hclear : spacing.Clear)
    (hfree : p.CheckFree) (h : draw depth p.shape = draw depth q.shape) : p = q := by
  have hchars : draw depth p.shape ++ [] = draw depth q.shape ++ [] := congrArg (· ++ []) h
  exact (shape_append_inj hdraws hclear hfree hchars).1

-- ========================================================== main result

/-- A tree without checks is told by what is shown of it, be it on one line or spread over
lines: no other tree, with checks or without, is shown so. -/
theorem eq_of_shown_alike (hfree : p.CheckFree)
    (h : p.shape.compact = q.shape.compact ∨ p.shape.pretty = q.shape.pretty) : p = q := by
  rcases h with h | h
  · have hchars : p.shape.inline = q.shape.inline := String.ofList_injective h
    exact @eq_of_draw_eq _ _ 0 _ _ Spacing.draws_tight Spacing.clear_tight hfree hchars
  · have hchars : p.shape.spread 0 = q.shape.spread 0 := String.ofList_injective h
    exact eq_of_draw_eq Spacing.draws_wide Spacing.clear_wide hfree hchars

/-- The permission of this rule is named like the end of one rule and the start of
another. -/
def ownersAndOthers : Predicate :=
  .any [.isProjectOwner, .hasPermission "edit\"), HasProjectPerm(\"own"]

/-- The normal form of a rule is known from its text. -/
theorem eq_nnf_of_pretty_eq :
    let rule := Predicate.not (.all [.not .isProjectOwner,
      .not (.hasPermission "edit\"), HasProjectPerm(\"own")])
    ownersAndOthers.CheckFree ∧ ownersAndOthers.shape.pretty = rule.nnf.shape.pretty
      ∧ ownersAndOthers = rule.nnf := by
  have hfree : ownersAndOthers.CheckFree := by
    intro check
    simp [ownersAndOthers, leaves, leavesOf]
  exact ⟨hfree, rfl, eq_of_shown_alike hfree (.inr rfl)⟩

end Predicate

end ProjectAccess
