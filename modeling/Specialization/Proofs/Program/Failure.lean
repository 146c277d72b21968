import Specialization.Proofs.Program.Matching

/-!
Turns that fail cannot be told afterwards. A run without a turn that failed in it gives the same
answers to all other turns, errors included, up to the numbers of classes, carriers and backing
types, and the same of them come with the same class or carrier. What a failed turn leaves behind is
what a later turn would have found anew.

Carriers are found by their parameters, and these are compared by the names of functions. So all
functions in a run have to be told apart by their names.
-/

namespace Specialization

variable {host : Host} {vocabulary : Vocabulary}

section Same

variable {a b : Scene}

theorem ItemKind.Same.unnumbered {kind : ItemKind} {content content' : kind.Content}
    (h : kind.Same host a b content content') :
    kind.unnumbered content = kind.unnumbered content' := by
  cases kind with
  | ofClass => exact Scene.Same.seen h
  | carrier => exact Scene.Same.seen h
  | object => exact Scene.Same.seen h
  | guard =>
      obtain ⟨hcarrier, hprevious⟩ := h
      have hview := (Scene.Same.option_iff.mp hprevious).2.2
      simp only [ItemKind.unnumbered, Guard.unnumbered, hcarrier.seen, hview]
  | site =>
      obtain ⟨⟨howner, hconstant, hadaptation, hrestrictions⟩, _, _⟩ := h
      simp only [ItemKind.unnumbered, SpecializedCallSite.unnumbered, howner.seen, hconstant,
        hadaptation, hrestrictions]
  | receiverSite =>
      obtain ⟨hmethod, hadaptation, _, _⟩ := h
      simp only [ItemKind.unnumbered, ReceiverCallSite.unnumbered, hmethod, hadaptation]

theorem Answer.Same.unnumbered {answer answer' : Answer} (h : answer.Same host a b answer') :
    answer.unnumbered = answer'.unnumbered := by
  cases h with
  | item h =>
      obtain ⟨hsame⟩ := h
      exact congrArg (fun content => Answer.item ⟨_, content⟩) hsame.unnumbered
  | _ => rfl

theorem Answer.Same.class? {answer answer' : Answer} (h : answer.Same host a b answer') :
    Option.Rel (a.SameClass b) answer.class? answer'.class? := by
  cases h with
  | @item found found' h =>
      obtain ⟨hsame⟩ := h
      rename_i kind content content'
      cases kind with
      | ofClass => exact .some hsame
      | object => exact .some (Scene.SameInstance.owner hsame)
      | _ => exact .none
  | _ => exact .none

theorem Answer.Same.carrier? {answer answer' : Answer} (h : answer.Same host a b answer') :
    Option.Rel (a.SameCarrier b) answer.carrier? answer'.carrier? := by
  cases h with
  | @item found found' h =>
      obtain ⟨hsame⟩ := h
      rename_i kind content content'
      cases kind with
      | carrier => exact .some hsame
      | object => exact Scene.SameInstance.carrier? hsame
      | guard => exact .some (Scene.SameGuard.carrier hsame)
      | _ => exact .none
  | _ => exact .none

end Same

theorem map_eq_of_forall₂ {α β γ : Type} {Related : α → β → Prop} {f : α → γ} {g : β → γ}
    (himp : ∀ x y, Related x y → f x = g y) {items : List α} {others : List β}
    (h : List.Forall₂ Related items others) : items.map f = others.map g := by
  rw [← List.forall₂_eq_eq_eq, List.forall₂_map_left_iff, List.forall₂_map_right_iff]
  exact h.imp himp

/-- The pattern of what is the same in two scenes, if that is identified in the same way in both. -/
theorem Answer.pattern_eq {α β : Type} [BEq α] {Held : Scene → α → Prop} {seen : α → β}
    {part : Answer → Option α} {a b : Scene}
    (hpart : ∀ answer answer', Answer.Same host a b answer answer' →
      Option.Rel (Scene.Same Held seen a b) (part answer) (part answer'))
    (hidentity : ∀ x y x' y', Scene.Same Held seen a b x x' → Scene.Same Held seen a b y y' →
      (x == y) = (x' == y'))
    {answers answers' : List (Except Error Answer)}
    (h : List.Forall₂ (Scene.Outcome (Answer.Same host a b)) answers answers') :
    pattern part answers = pattern part answers' := by
  have hbind : ∀ answer answer' : Except Error Answer,
      Scene.Outcome (Answer.Same host a b) answer answer' →
        Option.Rel (Scene.Same Held seen a b) (answer.toOption.bind part)
          (answer'.toOption.bind part) := by
    rintro _ _ (hsame | error)
    · exact hpart _ _ hsame
    · exact .none
  refine map_eq_of_forall₂ (fun first first' hfirst => ?_) h
  refine map_eq_of_forall₂ (fun second second' hsecond => ?_) h
  have hfirst := hbind first first' hfirst
  have hsecond := hbind second second' hsecond
  generalize first.toOption.bind part = x at hfirst ⊢
  generalize first'.toOption.bind part = x' at hfirst ⊢
  generalize second.toOption.bind part = y at hsecond ⊢
  generalize second'.toOption.bind part = y' at hsecond ⊢
  cases hfirst with
  | none => cases hsecond <;> rfl
  | some hfirst =>
      cases hsecond with
      | none => rfl
      | some hsecond => exact hidentity _ _ _ _ hfirst hsecond

namespace Scene

variable {a b : Scene}

/-- Classes are identical in one of two scenes that are alike if they are in the other one. -/
theorem SameClass.beq_eq (halike : a.Alike host vocabulary b) {self above self' above' : Class}
    (hself : a.SameClass b self self') (habove : a.SameClass b above above') :
    (self == above) = (self' == above') := by
  rw [halike.first.beq_eq hself.first habove.first, halike.second.beq_eq hself.second habove.second,
    Class.descriptor_of_unnumbered hself.seen, Class.descriptor_of_unnumbered habove.seen]

theorem SameCarrier.beq_eq (halike : a.Alike host vocabulary b)
    {carrier other carrier' other' : Carrier} (hcarrier : a.SameCarrier b carrier carrier')
    (hother : a.SameCarrier b other other') : (carrier == other) = (carrier' == other') := by
  rw [Bool.eq_iff_iff, Carrier.beq_iff, Carrier.beq_iff]
  constructor
  · intro hid
    obtain rfl := halike.first.sound.carrier_unique _ _ hcarrier.first hother.first hid
    rw [halike.second.carrier_eq hcarrier.second hother.second
      (hcarrier.seen.symm.trans hother.seen)]
  · intro hid
    obtain rfl := halike.second.sound.carrier_unique _ _ hcarrier.second hother.second hid
    rw [halike.first.carrier_eq hcarrier.first hother.first
      (hcarrier.seen.trans hother.seen.symm)]

end Scene

namespace Session

variable {session session' : Session} {a b : Scene}

/-- The answers of two runs that end in scenes that are alike, the same up to numbers there. -/
def SameAnswers (host : Host) (vocabulary : Vocabulary) (a b : Scene)
    (answers answers' : List (Except Error Answer)) : Prop :=
  ∃ a' b', a.Grows a' ∧ b.Grows b' ∧ a'.Alike host vocabulary b' ∧
    List.Forall₂ (Scene.Outcome (Answer.Same host a' b')) answers answers'

theorem Answered.cons {a' b' : Scene} {answer answer' : Except Error Answer}
    (h : Answered host vocabulary a b a' b' answer answer')
    {answers answers' : List (Except Error Answer)}
    (hrest : SameAnswers host vocabulary a' b' answers answers') :
    SameAnswers host vocabulary a b (answer :: answers) (answer' :: answers') := by
  obtain ⟨last, last', hgrows, hgrows', halike, hall⟩ := hrest
  refine ⟨last, last', h.grows.trans hgrows, h.grows'.trans hgrows', halike, .cons ?_ hall⟩
  exact h.outcome.mono fun _ _ _ _ hsame => hsame.grow hgrows hgrows'

/-- Sessions that match give the same answers to the same turns. -/
theorem Matches.answers (h : session.Matches host vocabulary session' a b) {turns : List Turn}
    (hcovered : ∀ turn ∈ turns, turn.CoveredBy vocabulary) :
    SameAnswers host vocabulary a b (session.answers host turns) (session'.answers host turns) := by
  induction turns generalizing session session' a b with
  | nil => exact ⟨a, b, .refl a, .refl b, h.alike, .nil⟩
  | cons turn rest ih =>
      obtain ⟨hturn, hrest⟩ := List.forall_mem_cons.mp hcovered
      obtain ⟨a', b', hanswered, hnext⟩ := h.perform hturn
      exact hanswered.cons (ih hnext hrest)

/-- A turn that failed in one session is left out in the other one. -/
theorem Matches.answers_without (h : session.Matches host vocabulary session' a b)
    {turns : List Turn} (hcovered : ∀ turn ∈ turns, turn.CoveredBy vocabulary) {index : Nat}
    {error : Error} (hfailed : (session.answers host turns)[index]? = some (.error error)) :
    SameAnswers host vocabulary a b ((session.answers host turns).eraseIdx index)
      (session'.answers host (turns.eraseIdx index)) := by
  induction turns generalizing session session' a b index with
  | nil => cases hfailed
  | cons turn rest ih =>
      obtain ⟨hturn, hrest⟩ := List.forall_mem_cons.mp hcovered
      cases index with
      | zero =>
          obtain ⟨a', hgrows, hnext⟩ := h.failed hturn (Option.some.inj hfailed)
          obtain ⟨last, last', hlater, hgrows', halike, hall⟩ := hnext.answers hrest
          exact ⟨last, last', hgrows.trans hlater, hgrows', halike, hall⟩
      | succ index =>
          obtain ⟨a', b', hanswered, hnext⟩ := h.perform hturn
          exact hanswered.cons (ih hnext hrest hfailed)

/-- A run without a turn that failed gives the same answers to all other turns, the same values and
the same errors, and the same of its answers come with the same class and with the same carrier. -/
theorem answers_eraseIdx {functions : Registry} (hclosed : vocabulary.Closed host functions)
    (config : Config) {turns : List Turn} (hcovered : ∀ turn ∈ turns, turn.CoveredBy vocabulary)
    {index : Nat} {error : Error}
    (hfailed : ((start config functions).answers host turns)[index]? = some (.error error)) :
    let answers := ((start config functions).answers host turns).eraseIdx index
    let others := (start config functions).answers host (turns.eraseIdx index)
    answers.map (Except.map Answer.unnumbered) = others.map (Except.map Answer.unnumbered) ∧
      Answer.pattern Answer.class? answers = Answer.pattern Answer.class? others ∧
      Answer.pattern Answer.carrier? answers = Answer.pattern Answer.carrier? others := by
  intro answers others
  obtain ⟨a, b, _, _, halike, hsame⟩ :=
    (start_matches config hclosed).answers_without hcovered hfailed
  refine ⟨?_, ?_, ?_⟩
  · refine map_eq_of_forall₂ (fun answer answer' houtcome => ?_) hsame
    exact Scene.outcome_map.mp (houtcome.mono fun _ _ _ _ h => h.unnumbered)
  · exact Answer.pattern_eq (fun _ _ h => h.class?)
      (fun _ _ _ _ => Scene.SameClass.beq_eq halike) hsame
  · exact Answer.pattern_eq (fun _ _ h => h.carrier?)
      (fun _ _ _ _ => Scene.SameCarrier.beq_eq halike) hsame

/-- A leaf maps its supertype to a class that is applied to a function, and that class maps its own
supertype to no superclass of it. Climbing from the leaf fails at the second step. Afterwards the
class in the middle is applied to a function that is given, and what it was applied to is called. -/
def climbingTurns : List Turn := [
  .request "" (.define { descriptor := "Base", defaults := ["Object"] }) rfl,
  .request "middle" (.define {
    descriptor := "Middle"
    superclass := some "Base"
    defaults := ["Object"]
    anchors := [{ name := "T", level := .ofClass }]
    constants := [
      { name := "T", action := "anchor" },
      { name := "other", action := "type", operands := [.type "Other"] },
      { name := "wrong", action := "species", operands := [.ref "other", .ref "T"] },
      { name := "above", action := "super", operands := [.ref "wrong"] },
      { name := "added", action := "species_params", operands := [.ref "T"] }] }) rfl,
  .request "leaf" (.define {
    descriptor := "Leaf"
    superclass := some "Middle"
    defaults := ["Object"]
    constants := [
      { name := "add", action := "function", operands := [.function "int.add"] },
      { name := "inner", action := "species", operands := [.type "Adder", .ref "add"] },
      { name := "applied", action := "species", operands := [.type "Middle", .ref "inner"] },
      { name := "above", action := "super", operands := [.ref "applied"] }] }) rfl,
  .request "below" (.carrier "leaf" none) rfl,
  .request "above" (.supertype "below" "Base") rfl,
  .request "given" (.carrier "middle"
    (some (.species "Adder" (.function ⟨"int.add", 2, .intAdd⟩ [])))) rfl,
  .request "site" (.site "middle" "added" .none []) rfl,
  .call "site" "given" [.int 1, .int 2]]

/-- The error of an answer, or the number that is returned if there is one. -/
def told : Except Error Answer → Error ⊕ Option Int32
  | .error error => .inl error
  | .ok (.value value) => .inr value.asInt?
  | .ok _ => .inr none

theorem told_unnumbered (answers : List (Except Error Answer)) :
    (answers.map (Except.map Answer.unnumbered)).map told = answers.map told := by
  rw [List.map_map]
  apply List.map_congr_left
  rintro (error | answer) _
  · rfl
  · cases answer <;> rfl

theorem error_of_told {answers : List (Except Error Answer)} {index : Nat} {error : Error}
    (h : (answers.map told)[index]? = some (.inl error)) :
    answers[index]? = some (.error error) := by
  rw [List.getElem?_map, Option.map_eq_some_iff] at h
  obtain ⟨answer, hanswer, htold⟩ := h
  rcases answer with other | answer
  · rw [hanswer, Sum.inl.inj htold]
  · cases answer <;> cases htold

/-- The functions of the standard registry. -/
def standardVocabulary : Vocabulary where
  Contains native := native ∈ Registry.standard.functions
  unique a b ha hb := by
    have hunique : ∀ a ∈ Registry.standard.functions, ∀ b ∈ Registry.standard.functions,
        a.name = b.name → a = b := by decide
    exact hunique a ha b hb

/-- The function that is given is the one that the leaf names, so it does not matter that a climb
failed. -/
theorem answers_climbing :
    let host : Host := fun _ _ => .error "absent"
    let run (turns : List Turn) : List (Except Error Answer) :=
      (start { synthesizeBackingTypes := false } .standard).answers host turns
    let answers := (run climbingTurns).eraseIdx 4
    let others := run (climbingTurns.eraseIdx 4)
    (run climbingTurns)[4]? = some (.error (.supertypeMismatch "Middle" "Base" "Other")) ∧
      (answers.map (Except.map Answer.unnumbered) = others.map (Except.map Answer.unnumbered) ∧
        Answer.pattern Answer.class? answers = Answer.pattern Answer.class? others ∧
        Answer.pattern Answer.carrier? answers = Answer.pattern Answer.carrier? others) ∧
      answers.map told = [.inr none, .inr none, .inr none, .inr none, .inr none, .inr none,
        .inr (some 3)] := by
  intro host run answers others
  have hclosed : standardVocabulary.Closed host .standard := by
    constructor
    · exact fun _ _ hfound => List.mem_of_find?_eq_some hfound
    · rintro index arguments value _ ⟨⟩
  have hgiven : standardVocabulary.Covers
      (.species "Adder" (.function ⟨"int.add", 2, .intAdd⟩ [])) := ⟨List.mem_cons_self, trivial⟩
  have hcovered : ∀ turn ∈ climbingTurns, turn.CoveredBy standardVocabulary := by
    simp only [climbingTurns, List.forall_mem_cons]
    exact ⟨trivial, trivial, trivial, Vocabulary.coversOption_none, trivial,
      Vocabulary.coversOption_some hgiven, trivial, trivial, List.forall_mem_nil _⟩
  have hfailed : (run climbingTurns)[4]? =
      some (.error (.supertypeMismatch "Middle" "Base" "Other")) :=
    error_of_told (by decide +kernel)
  exact ⟨hfailed, answers_eraseIdx hclosed _ hcovered hfailed, by decide +kernel⟩

/-- A host whose functions return their last argument. -/
def returningLast : Host := fun _ arguments =>
  match arguments.getLast? with
  | some value => .ok value
  | none => .error "absent"

/-- Where the leaf names another function of the same name, a climb that failed is seen: it made the
carrier that is found later for the function that is given, and that carrier holds the other one. -/
theorem failed_climb_is_seen :
    ¬ ∀ (host : Host) (config : Config) (functions : Registry) (turns : List Turn) (index : Nat)
      (error : Error),
      ((start config functions).answers host turns)[index]? = some (.error error) →
        (((start config functions).answers host turns).eraseIdx index).map
            (Except.map Answer.unnumbered) =
          ((start config functions).answers host (turns.eraseIdx index)).map
            (Except.map Answer.unnumbered) := by
  intro h
  have hsame := h returningLast { synthesizeBackingTypes := false }
    (Registry.standard.register ⟨"int.add", 3, .host 0⟩) climbingTurns 4
    (.supertypeMismatch "Middle" "Base" "Other") (error_of_told (by decide +kernel))
  have htold := congrArg (List.map told) hsame
  rw [told_unnumbered, told_unnumbered] at htold
  exact absurd htold (by decide +kernel)

end Session

end Specialization
