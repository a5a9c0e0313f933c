/-
This file says what the two packings of a joint forest keep.

Derivations are packed into parses by their forms, and pairs into groups by their results. Both are
built one element at a time, and both keep all of what they pack. A parse is made of the derivations
that are dealt to it, which are those of its form, so that it has their mass; and the members of the
groups are the pairs in another order. Forms need an equality that is an equivalence. Results need
not: a result that is not even equal to itself makes a group of its own for every pair.
-/

import Mathlib.Algebra.BigOperators.Group.List.Basic
import Mathlib.Data.List.Induction
import WordArithmetic.Forest.Joint
import WordArithmetic.Proofs.Dealing
import WordArithmetic.Proofs.Failure
import WordArithmetic.Proofs.FeatureVector

namespace WordArithmetic

/-- A sum over the elements that pass a test is a sum over all, with zero for the others. -/
theorem sum_map_filter {Element Number : Type} [AddCommMonoid Number] (test : Element → Bool)
    (value : Element → Number) (elements : List Element) :
    ((elements.filter test).map value).sum =
      (elements.map fun element => if test element then value element else 0).sum := by
  induction elements with
  | nil => rfl
  | cons first rest hypothesis =>
    rw [List.map_cons, List.sum_cons, ← hypothesis]
    cases passes : test first with
    | true =>
      rw [List.filter_cons_of_pos passes, List.map_cons, List.sum_cons]
      rfl
    | false =>
      rw [List.filter_cons_of_neg (Bool.eq_false_iff.1 passes), if_neg Bool.false_ne_true, zero_add]

/-! ### Parses -/

namespace ParseForest

section Collected

variable {Form Number : Type} [BEq Form] [LogScore Number]

/-- The mass of the derivations of a form. -/
def mass [AddCommMonoid Number] (derivations : List (Derivation Form Number)) (form : Form) :
    Number :=
  ((derivations.filter fun derivation => derivation.form == form).map fun derivation =>
    LogScore.exp derivation.score).sum

/-- The parse that the derivations of a form make, one after the other. -/
def collected [LT Number] [DecidableLT Number] [Zero Number] [Add Number]
    (derivations : List (Derivation Form Number)) (form : Form) : Parse Form Number :=
  (derivations.filter fun derivation => derivation.form == form).foldl
    (fun parse derivation => parse.add derivation.score derivation.features) (Parse.start form)

end Collected

section Making

variable {Form Number : Type} [BEq Form] [LT Number] [DecidableLT Number] [LogScore Number]

/-- Whether two derivations have one form. -/
def sameForm (left right : Derivation Form Number) : Bool :=
  left.form == right.form

section Adding

variable [Zero Number] [Add Number]

/-- A parse that some derivations make, one after the other: it has the form of the first, and all
of them have that form. -/
structure IsMadeOf (derivations : List (Derivation Form Number)) (parse : Parse Form Number) :
    Prop where
  first : derivations.head?.map Derivation.form = some parse.form
  form : ∀ derivation ∈ derivations, (derivation.form == parse.form) = true
  made : parse = derivations.foldl
    (fun parse derivation => parse.add derivation.score derivation.features) (Parse.start parse.form)

/-- A derivation of its form joins the parse. -/
theorem IsMadeOf.add {derivations : List (Derivation Form Number)} {parse : Parse Form Number}
    (of : IsMadeOf derivations parse) {last : Derivation Form Number}
    (same : (last.form == parse.form) = true) :
    IsMadeOf (derivations ++ [last]) (parse.add last.score last.features) where
  first := by
    obtain ⟨leader, head, form⟩ := Option.map_eq_some_iff.1 of.first
    rw [List.head?_append, head]
    exact congrArg some form
  form := List.forall_mem_append.2 ⟨of.form, List.forall_mem_singleton.2 same⟩
  made := by
    rw [List.foldl_append]
    exact congrArg (fun parse => parse.add last.score last.features) of.made

variable [EquivBEq Form]

/-- Adding a derivation to parses deals it to the derivations that make them. -/
theorem forall₂_addDerivation {hands : List (List (Derivation Form Number))}
    {parses : List (Parse Form Number)} (made : List.Forall₂ IsMadeOf hands parses)
    (last : Derivation Form Number) :
    List.Forall₂ IsMadeOf (deal sameForm last hands) (addDerivation last parses) := by
  induction made with
  | nil => exact .cons ⟨rfl, List.forall_mem_singleton.2 BEq.rfl, rfl⟩ .nil
  | @cons hand parse hands parses here there hypothesis =>
    have test : hand.head?.any (sameForm last) = (parse.form == last.form) := by
      obtain ⟨leader, head, form⟩ := Option.map_eq_some_iff.1 here.first
      rw [head, ← form, BEq.comm]
      rfl
    rw [deal, addDerivation, test]
    split
    · rename_i same
      exact .cons (here.add (BEq.symm same)) there
    · exact .cons here hypothesis

/-- The parses of a forest are made of the hands to which its derivations are dealt by their
forms. -/
theorem forall₂_parses (forest : ParseForest Form Number) :
    List.Forall₂ IsMadeOf (dealAll sameForm forest.derivations) forest.parses := by
  obtain ⟨derivations, exact⟩ := forest
  induction derivations using List.reverseRecOn with
  | nil => exact .nil
  | append_singleton derivations last hypothesis =>
    have step := forall₂_addDerivation hypothesis last
    rw [dealAll, parses, List.foldl_append, List.foldl_append]
    exact step

omit [LT Number] [DecidableLT Number] [LogScore Number] [Zero Number] [Add Number] in
/-- How the derivations of a list are dealt by their forms. -/
theorem exists_home_sameForm (derivations : List (Derivation Form Number)) :
    ∃ home, IsDealt sameForm derivations (dealAll sameForm derivations) home := by
  have symm (left right : Derivation Form Number) (same : sameForm left right = true) :
      sameForm right left = true := BEq.symm same
  have trans (left middle right : Derivation Form Number) (first : sameForm left middle = true)
      (second : sameForm middle right = true) : sameForm left right = true :=
    BEq.trans first second
  exact IsDealt.exists_home symm trans derivations

variable {forest : ParseForest Form Number} {parse : Parse Form Number}

/-- A parse is made of the derivations of its form. -/
theorem isMadeOf_of_mem (member : parse ∈ forest.parses) :
    IsMadeOf (forest.derivations.filter fun derivation => derivation.form == parse.form) parse := by
  obtain ⟨home, dealt⟩ := exists_home_sameForm forest.derivations
  obtain ⟨hand, inside, made⟩ := exists_of_forall₂ forest.forall₂_parses parse member
  obtain ⟨place, found⟩ := List.mem_iff_getElem?.1 inside
  obtain ⟨leader, head, whole⟩ := dealt.hand_eq_filter (fun _ => BEq.rfl) found
  obtain ⟨first, sameFirst, form⟩ := Option.map_eq_some_iff.1 made.first
  obtain rfl := Option.some.inj (head.symm.trans sameFirst)
  rw [← form]
  exact whole ▸ made

/-- A parse collects the derivations of its form. -/
theorem eq_collected (member : parse ∈ forest.parses) :
    parse = collected forest.derivations parse.form :=
  (isMadeOf_of_mem member).made

/-- Every parse has the form of a derivation. -/
theorem exists_form_eq (member : parse ∈ forest.parses) :
    ∃ derivation ∈ forest.derivations, derivation.form = parse.form := by
  obtain ⟨first, head, form⟩ := Option.map_eq_some_iff.1 (isMadeOf_of_mem member).first
  exact ⟨first, List.mem_of_mem_filter (List.mem_of_head? head), form⟩

end Adding

variable [AddCommMonoid Number]

omit [BEq Form] in
/-- Derivations add their masses to a parse. -/
theorem inside_foldl (derivations : List (Derivation Form Number)) (parse : Parse Form Number) :
    (derivations.foldl
      (fun parse derivation => parse.add derivation.score derivation.features) parse).inside =
      parse.inside + (derivations.map fun derivation => LogScore.exp derivation.score).sum := by
  induction derivations generalizing parse with
  | nil => exact (add_zero _).symm
  | cons first rest hypothesis =>
    rw [List.foldl_cons, hypothesis, List.map_cons, List.sum_cons, ← add_assoc]
    rfl

/-- The mass of a parse is that of the derivations of its form. -/
theorem inside_eq_mass [EquivBEq Form] {forest : ParseForest Form Number}
    {parse : Parse Form Number} (member : parse ∈ forest.parses) :
    parse.inside = mass forest.derivations parse.form := by
  have whole := congrArg Parse.inside (eq_collected member)
  rw [collected, inside_foldl] at whole
  exact whole.trans (zero_add _)

end Making

end ParseForest

/-! ### Groups -/

namespace Group

variable {Form Number : Type}

/-- Groups that gather a list of pairs: their members are the pairs, and the result of every member
is that of the group or equal to it. -/
structure Gathers (pairs : List (Pair Form Number)) (groups : List (Group Form Number)) : Prop where
  members : (groups.flatMap Group.members).Perm pairs
  results : ∀ group ∈ groups, ∀ pair ∈ group.members,
    pair.evaluation.result = group.result ∨ pair.evaluation.result.same group.result = true
  known : ∀ group ∈ groups, group.first.evaluation.result = group.result

theorem members_add (group : Group Form Number) (pair : Pair Form Number) :
    (group.add pair).members = group.members ++ [pair] := rfl

/-- Placing a pair adds it to the members. -/
theorem members_place (pair : Pair Form Number) (groups : List (Group Form Number)) :
    ((place pair groups).flatMap Group.members).Perm (groups.flatMap Group.members ++ [pair]) := by
  induction groups with
  | nil => exact List.Perm.refl _
  | cons group rest hypothesis =>
    rw [place]
    split
    · rw [List.flatMap_cons, List.flatMap_cons, members_add, List.append_assoc, List.append_assoc]
      exact List.perm_append_comm.append_left _
    · rw [List.flatMap_cons, List.flatMap_cons, List.append_assoc]
      exact hypothesis.append_left _

/-- Every group after a pair has been placed is an old one, an old one with an equal result that has
received the pair, or the group of the pair alone. -/
theorem mem_place {pair : Pair Form Number} {groups : List (Group Form Number)}
    {group : Group Form Number} (member : group ∈ place pair groups) :
    group ∈ groups ∨
      (∃ old ∈ groups, pair.evaluation.result.same old.result = true ∧ group = old.add pair) ∨
      group = ⟨pair.evaluation.result, pair, []⟩ := by
  induction groups with
  | nil => exact Or.inr (Or.inr (List.mem_singleton.1 member))
  | cons first rest hypothesis =>
    rw [place] at member
    split at member
    · rename_i same
      rcases List.mem_cons.1 member with rfl | later
      · exact Or.inr (Or.inl ⟨first, List.mem_cons_self, same, rfl⟩)
      · exact Or.inl (List.mem_cons_of_mem _ later)
    · rcases List.mem_cons.1 member with rfl | later
      · exact Or.inl List.mem_cons_self
      · rcases hypothesis later with old | ⟨old, oldMember, same, rfl⟩ | new
        · exact Or.inl (List.mem_cons_of_mem _ old)
        · exact Or.inr (Or.inl ⟨old, List.mem_cons_of_mem _ oldMember, same, rfl⟩)
        · exact Or.inr (Or.inr new)

/-- Placing a pair keeps pairs gathered. -/
theorem Gathers.place {pairs : List (Pair Form Number)} {groups : List (Group Form Number)}
    (gathers : Gathers pairs groups) (last : Pair Form Number) :
    Gathers (pairs ++ [last]) (Group.place last groups) where
  members := (members_place last groups).trans (gathers.members.append_right _)
  results := by
    intro group member pair pairMember
    rcases mem_place member with old | ⟨old, oldMember, same, rfl⟩ | rfl
    · exact gathers.results group old pair pairMember
    · rw [members_add] at pairMember
      rcases List.mem_append.1 pairMember with earlier | now
      · exact gathers.results old oldMember pair earlier
      · obtain rfl := List.mem_singleton.1 now
        exact Or.inr same
    · obtain rfl := List.mem_singleton.1 pairMember
      exact Or.inl rfl
  known := by
    intro group member
    rcases mem_place member with old | ⟨old, oldMember, _, rfl⟩ | rfl
    · exact gathers.known group old
    · exact gathers.known old oldMember
    · rfl

/-- The groups of a list of pairs gather it. -/
theorem gathers_ofPairs (pairs : List (Pair Form Number)) : Gathers pairs (ofPairs pairs) := by
  induction pairs using List.reverseRecOn with
  | nil => exact ⟨List.Perm.refl _, nofun, nofun⟩
  | append_singleton pairs last hypothesis =>
    have step := hypothesis.place last
    rw [ofPairs, List.foldl_append]
    exact step

/-- A test that decides on every group selects those that pass it. -/
theorem select_eq_filter {groups : List (Group Form Number)} {accept : Value → Except Failure Bool}
    {passes : Value → Bool}
    (decides : ∀ group ∈ groups, accept group.result = .ok (passes group.result)) :
    select groups accept = .ok (groups.filter fun group => passes group.result) := by
  have collected : ∀ done : List (Group Form Number),
      List.filterAuxM (fun group => accept group.result) groups done =
        .ok ((groups.filter fun group => passes group.result).reverse ++ done) := by
    induction groups with
    | nil => exact fun done => rfl
    | cons first rest hypothesis =>
      intro done
      have decided := decides first List.mem_cons_self
      have later := hypothesis fun group member => decides group (List.mem_cons_of_mem _ member)
      rw [List.filterAuxM, decided]
      refine (later _).trans ?_
      cases passed : passes first.result with
      | true => simp only [passed, cond_true, List.filter_cons_of_pos, List.reverse_cons,
          List.append_assoc, List.singleton_append]
      | false => simp only [passed, cond_false, Bool.false_eq_true, not_false_eq_true,
          List.filter_cons_of_neg]
  rw [select, List.filterM, collected, List.append_nil]
  exact congrArg Except.ok (List.reverse_reverse _)

/-- A test that gives an answer for every group decides by a property of their results. -/
theorem exists_passes {groups : List (Group Form Number)} {accept : Value → Except Failure Bool}
    (answered : ∀ group ∈ groups, ∃ answer, accept group.result = .ok answer) :
    ∃ passes : Value → Bool, ∀ group ∈ groups, accept group.result = .ok (passes group.result) := by
  refine ⟨fun value => (accept value).toOption.getD false, fun group member => ?_⟩
  obtain ⟨answer, given⟩ := answered group member
  simp only [given]
  rfl

/-- A selection has decided on every group. -/
theorem exists_passes_of_select {groups selected : List (Group Form Number)}
    {accept : Value → Except Failure Bool} (done : select groups accept = .ok selected) :
    ∃ passes : Value → Bool,
      (∀ group ∈ groups, accept group.result = .ok (passes group.result)) ∧
        selected = groups.filter fun group => passes group.result := by
  have answered : ∀ {before after : List (Group Form Number)},
      List.filterAuxM (fun group => accept group.result) groups before = .ok after →
        ∀ group ∈ groups, ∃ answer, accept group.result = .ok answer := by
    clear done
    induction groups with
    | nil => exact fun _ => List.forall_mem_nil _
    | cons first rest hypothesis =>
      intro before after collected
      obtain ⟨answer, given, later⟩ := bind_eq_ok collected
      exact List.forall_mem_cons.2 ⟨⟨answer, given⟩, hypothesis later⟩
  obtain ⟨kept, collected, _⟩ := bind_eq_ok done
  obtain ⟨passes, decides⟩ := exists_passes (answered collected)
  exact ⟨passes, decides, Except.ok.inj (done.symm.trans (select_eq_filter decides))⟩

/-- If a test treats the results of gathered pairs alike, the members of the groups that pass it are
the pairs that pass it. -/
theorem Gathers.members_filter {pairs : List (Pair Form Number)}
    {groups : List (Group Form Number)} (gathers : Gathers pairs groups) {passes : Value → Bool}
    (alike : ∀ left ∈ pairs, ∀ right ∈ pairs,
      left.evaluation.result.same right.evaluation.result = true →
        passes left.evaluation.result = passes right.evaluation.result) :
    ((groups.filter fun group => passes group.result).flatMap Group.members).Perm
      (pairs.filter fun pair => passes pair.evaluation.result) := by
  have agree : ∀ group ∈ groups, ∀ pair ∈ group.members,
      passes pair.evaluation.result = passes group.result := by
    intro group member pair pairMember
    have placed : ∀ other ∈ group.members, other ∈ pairs := fun other otherMember =>
      gathers.members.mem_iff.1 (List.mem_flatMap.2 ⟨group, member, otherMember⟩)
    rcases gathers.results group member pair pairMember with equal | same
    · rw [equal]
    · rw [← gathers.known group member] at same ⊢
      exact alike pair (placed pair pairMember) group.first (placed _ List.mem_cons_self) same
  have chosen : (groups.filter fun group => passes group.result).flatMap Group.members =
      (groups.flatMap Group.members).filter fun pair => passes pair.evaluation.result := by
    clear gathers alike
    induction groups with
    | nil => rfl
    | cons first rest hypothesis =>
      have later := hypothesis fun group member => agree group (List.mem_cons_of_mem _ member)
      have here := agree first List.mem_cons_self
      rw [List.flatMap_cons, List.filter_append, ← later]
      cases passed : passes first.result with
      | true =>
        have all : first.members.filter (fun pair => passes pair.evaluation.result) =
            first.members :=
          List.filter_eq_self.2 fun pair member => (here pair member).trans passed
        rw [List.filter_cons, if_pos passed, List.flatMap_cons, all]
      | false =>
        have none : first.members.filter (fun pair => passes pair.evaluation.result) = [] :=
          List.filter_eq_nil_iff.2 fun pair member =>
            Bool.eq_false_iff.1 ((here pair member).trans passed)
        rw [List.filter_cons, if_neg (Bool.eq_false_iff.1 passed), none, List.nil_append]
  rw [chosen]
  exact gathers.members.filter _

end Group

end WordArithmetic
