import Specialization.ClassSpec.Document
import Specialization.Proofs.Document.Record
import Specialization.Proofs.Json.Text

/-!
Class specs and declarations of classes are read back from the text that they are written as: all
that have only finite doubles, and so all that a text was read as.
-/

namespace Specialization

open Json

theorem Decimal.int32?_toInt (value : Int32) : int32? value.toInt = some value := by
  have hlow : minInt32 ≤ value.toInt := value.le_toInt
  have hhigh : value.toInt ≤ maxInt32 := Int.lt_add_one_iff.mp value.toInt_lt
  rw [int32?, if_pos ⟨hlow, hhigh⟩, Int32.ofInt_toInt]

theorem Operand.ofJson?_toJson (operand : Operand) : ofJson? operand.toJson = some operand := by
  cases operand with
  | int value => exact congrArg (Option.map Operand.int) (Decimal.int32?_toInt value)
  | _ => rfl

theorem Declaration.ofJson?_toJson (declaration : Declaration) :
    ofJson? declaration.toJson = some declaration := by
  have hoperands := listOf_array_map Operand.ofJson?_toJson declaration.operands
  simp [ofJson?, toJson, record?, required, defaulted, occurrences, asString?, hoperands]

namespace Anchor

theorem levelOfName?_text (level : Level) : levelOfName? level.text = some level := by
  cases level <;> rfl

/-- The text of a level is read as that level in either of the two ways to read a name. -/
theorem ofFields?_fields {asName? : Json → Option String}
    (hname : ∀ name, asName? (.string name) = some name) (anchor : Anchor) :
    ofFields? asName? anchor.fields = some anchor := by
  have hparent : nullable anchor.fields "parent" asString? = some anchor.parent :=
    nullable_written rfl
  have hlevel : (asName? (.string anchor.level.text)).bind levelOfName? = some anchor.level := by
    rw [hname, Option.bind_some, levelOfName?_text]
  rw [ofFields?, hparent]
  simp [fields, required, occurrences, asString?, hlevel]

theorem ofJson?_toJson (anchor : Anchor) : ofJson? anchor.toJson = some anchor :=
  ofFields?_fields (fun _ => rfl) anchor

end Anchor

/-- The owner stands beside the fields of the anchor, under a name that none of them has. -/
theorem ImportedAnchor.ofJson?_toJson (imported : ImportedAnchor) :
    ofJson? imported.toJson = some imported := by
  have hothers : (("owner", .string imported.owner) :: imported.anchor.fields).filter
      (fun field => field.1 != "owner") = imported.anchor.fields := rfl
  have hrepresentable : allFieldsRepresentable fieldLevels imported.anchor.fields = true := by
    obtain ⟨owner, name, level, _ | parent⟩ := imported <;> rfl
  have hanchor : Anchor.ofFields? asEmbeddedName? imported.anchor.fields = some imported.anchor :=
    Anchor.ofFields?_fields (fun _ => rfl) imported.anchor
  have howner : required (("owner", .string imported.owner) :: imported.anchor.fields) "owner"
      asString? = some imported.owner := rfl
  simp [ofJson?, toJson, asObject?, hothers, hrepresentable, hanchor, howner]

theorem MethodSpec.ofJson?_toJson (method : MethodSpec) :
    ofJson? method.toJson = some method := by
  have hdefaults := listOf_strings method.defaults
  rw [toJson, ofJson?, record?, Option.bind_eq_bind, Option.bind_some, nullable_written rfl]
  simp [required, defaulted, occurrences, asString?, hdefaults]

theorem ClassSpec.ofJson?_toJson (spec : ClassSpec) : ofJson? spec.toJson = some spec := by
  have hdefaults := listOf_strings spec.defaults
  have hmethods := listOf_array_map MethodSpec.ofJson?_toJson spec.methods
  have hconstants := listOf_array_map Declaration.ofJson?_toJson spec.constants
  have hanchors := listOf_array_map Anchor.ofJson?_toJson spec.anchors
  have himported := listOf_array_map ImportedAnchor.ofJson?_toJson spec.importedAnchors
  rw [toJson, ofJson?, record?, Option.bind_eq_bind, Option.bind_some, nullable_written rfl]
  simp [required, defaulted, occurrences, asString?, hdefaults, hmethods, hconstants, hanchors,
    himported]

theorem ClassDeclarations.ofJson?_toJson (declarations : ClassDeclarations) :
    ofJson? declarations.toJson = some declarations := by
  have hconstants := listOf_array_map Declaration.ofJson?_toJson declarations.constants
  have hanchors := listOf_array_map Anchor.ofJson?_toJson declarations.anchors
  simp [toJson, ofJson?, record?, required, defaulted, occurrences, asString?, hconstants,
    hanchors]

/-- Of the doubles only the finite ones can be written. -/
def Operand.IsFinite : Operand → Prop
  | .double value => value.isFinite
  | _ => True

def Declaration.IsFinite (declaration : Declaration) : Prop :=
  ∀ operand ∈ declaration.operands, operand.IsFinite

def ClassSpec.IsFinite (spec : ClassSpec) : Prop :=
  ∀ declaration ∈ spec.constants, declaration.IsFinite

def ClassDeclarations.IsFinite (declarations : ClassDeclarations) : Prop :=
  ∀ declaration ∈ declarations.constants, declaration.IsFinite

theorem Operand.writable {operand : Operand} (h : operand.IsFinite) : operand.toJson.Writable := by
  have htagged (kind : String) {value : Json} (hvalue : value.Writable) :
      (Json.object [("kind", .string kind), ("value", value)]).Writable :=
    .object (List.forall_mem_cons.mpr ⟨.string kind, List.forall_mem_singleton.mpr hvalue⟩)
  cases operand with
  | int value =>
      have hlow : -2 ^ 31 ≤ value.toInt := value.le_toInt
      have hhigh : value.toInt < 2 ^ 31 := value.toInt_lt
      exact htagged "int" (.integer (by omega) (by omega))
  | double value => exact htagged "double" (.double h)
  | ref name => exact htagged "ref" (.string name)
  | string value => exact htagged "str" (.string value)
  | type descriptor => exact htagged "type" (.string descriptor)
  | function name => exact htagged "function" (.string name)

theorem Declaration.writable {declaration : Declaration} (h : declaration.IsFinite) :
    declaration.toJson.Writable := by
  refine .object ?_
  simp only [List.forall_mem_cons]
  exact ⟨.string _, .string _, writable_array_map fun operand hoperand =>
    Operand.writable (h operand hoperand), fun _ hnone => nomatch hnone⟩

theorem Anchor.writable_fields (anchor : Anchor) : ∀ field ∈ anchor.fields, field.2.Writable := by
  simp only [fields, List.forall_mem_cons]
  exact ⟨.string _, .string _, writable_ofOption_string _, fun _ hnone => nomatch hnone⟩

theorem MethodSpec.writable (method : MethodSpec) : method.toJson.Writable := by
  refine .object ?_
  simp only [List.forall_mem_cons]
  exact ⟨.string _, writable_ofOption_string _, .string _, writable_strings _,
    fun _ hnone => nomatch hnone⟩

theorem ClassSpec.writable {spec : ClassSpec} (h : spec.IsFinite) : spec.toJson.Writable := by
  refine .object ?_
  simp only [List.forall_mem_cons]
  exact ⟨.string _, writable_ofOption_string _, writable_strings _,
    writable_array_map fun method _ => method.writable,
    writable_array_map fun declaration hdeclaration => Declaration.writable (h declaration hdeclaration),
    writable_array_map fun anchor _ => .object anchor.writable_fields,
    writable_array_map fun imported _ =>
      .object (List.forall_mem_cons.mpr ⟨.string _, imported.anchor.writable_fields⟩),
    fun _ hnone => nomatch hnone⟩

theorem ClassDeclarations.writable {declarations : ClassDeclarations} (h : declarations.IsFinite) :
    declarations.toJson.Writable := by
  refine .object ?_
  simp only [List.forall_mem_cons]
  exact ⟨.string _,
    writable_array_map fun declaration hdeclaration => Declaration.writable (h declaration hdeclaration),
    writable_array_map fun anchor _ => .object anchor.writable_fields,
    fun _ hnone => nomatch hnone⟩

theorem ClassSpec.parse?_render {spec : ClassSpec} (h : spec.IsFinite) :
    parse? spec.toJson.render = some spec := by
  rw [parse?, Json.parse?_render (writable h), Option.bind_some, ofJson?_toJson]

theorem ClassDeclarations.parse?_render {declarations : ClassDeclarations}
    (h : declarations.IsFinite) : parse? declarations.toJson.render = some declarations := by
  rw [parse?, Json.parse?_render (writable h), Option.bind_some, ofJson?_toJson]

theorem Json.isFinite_of_asDouble? {document : Json} {value : Double}
    (hbounded : document.Bounded True) (h : document.asDouble? = some value) : value.isFinite := by
  cases hbounded with
  | integer hlow hhigh =>
      cases h
      exact Double.isFinite_ofDecimal_integer _ (by omega)
  | double hfinite =>
      cases h
      exact hfinite
  | _ => cases h

theorem Operand.isFinite_of_ofTagged? {kind : String} {value : Json} {operand : Operand}
    (hbounded : value.Bounded True) (h : ofTagged? kind value = some operand) :
    operand.IsFinite := by
  unfold ofTagged? at h
  split at h
  case h_3 =>
    obtain ⟨number, hnumber, rfl⟩ := Option.map_eq_some_iff.mp h
    exact isFinite_of_asDouble? hbounded hnumber
  case h_7 => cases h
  all_goals
    obtain ⟨_, -, rfl⟩ := Option.map_eq_some_iff.mp h
    trivial

theorem Operand.isFinite_of_ofJson? {document : Json} {operand : Operand}
    (hbounded : document.Bounded True) (h : ofJson? document = some operand) :
    operand.IsFinite := by
  unfold ofJson? at h
  split at h
  · rename_i kind value
    cases hbounded with
    | array hitems => exact isFinite_of_ofTagged? (hitems value (by simp)) h
  · obtain ⟨fields, hfields, hrecord⟩ := Option.bind_eq_some_iff.mp h
    obtain ⟨kind, -, htagged⟩ := Option.bind_eq_some_iff.mp hrecord
    obtain ⟨value, hvalue, hkind⟩ := Option.bind_eq_some_iff.mp htagged
    obtain ⟨_, hmem, ⟨⟩⟩ := mem_occurrences_of_required hvalue
    exact isFinite_of_ofTagged?
      (bounded_of_mem_occurrences (eq_object_of_asObject? hfields ▸ hbounded) hmem) hkind

theorem Declaration.isFinite_of_ofJson? {document : Json} {declaration : Declaration}
    (hbounded : document.Bounded True) (h : ofJson? document = some declaration) :
    declaration.IsFinite := by
  simp only [ofJson?, Option.bind_eq_bind, Option.bind_eq_some_iff] at h
  obtain ⟨fields, hfields, _, -, _, -, operands, hoperands, ⟨⟩⟩ := h
  exact forall_mem_of_defaulted_listOf Operand.isFinite_of_ofJson?
    (bounded_of_record? hbounded hfields) hoperands

theorem ClassSpec.isFinite_of_ofJson? {document : Json} {spec : ClassSpec}
    (hbounded : document.Bounded True) (h : ofJson? document = some spec) : spec.IsFinite := by
  simp only [ofJson?, Option.bind_eq_bind, Option.bind_eq_some_iff] at h
  obtain ⟨fields, hfields, _, -, _, -, _, -, _, -, constants, hconstants, _, -, _, -, ⟨⟩⟩ := h
  exact forall_mem_of_defaulted_listOf Declaration.isFinite_of_ofJson?
    (bounded_of_record? hbounded hfields) hconstants

theorem ClassDeclarations.isFinite_of_ofJson? {document : Json} {declarations : ClassDeclarations}
    (hbounded : document.Bounded True) (h : ofJson? document = some declarations) :
    declarations.IsFinite := by
  simp only [ofJson?, Option.bind_eq_bind, Option.bind_eq_some_iff] at h
  obtain ⟨fields, hfields, _, -, constants, hconstants, _, -, ⟨⟩⟩ := h
  exact forall_mem_of_defaulted_listOf Declaration.isFinite_of_ofJson?
    (bounded_of_record? hbounded hfields) hconstants

/-- A class spec and the declarations of a class are read back from the text that they are written
as, if their doubles are finite. All that is read from a text is of that kind, so a text that was
accepted stands for the same after it was read, written and read. -/
theorem documents_readBack :
    (∀ spec : ClassSpec, spec.IsFinite → ClassSpec.parse? spec.toJson.render = some spec) ∧
      (∀ declarations : ClassDeclarations, declarations.IsFinite →
        ClassDeclarations.parse? declarations.toJson.render = some declarations) ∧
      (∀ text spec, ClassSpec.parse? text = some spec →
        ClassSpec.parse? spec.toJson.render = ClassSpec.parse? text) ∧
      ∀ text declarations, ClassDeclarations.parse? text = some declarations →
        ClassDeclarations.parse? declarations.toJson.render =
          ClassDeclarations.parse? text := by
  refine ⟨fun _ => ClassSpec.parse?_render, fun _ => ClassDeclarations.parse?_render, ?_, ?_⟩
  · intro text spec hread
    obtain ⟨document, hdocument, hspec⟩ := Option.bind_eq_some_iff.mp hread
    have hfinite := ClassSpec.isFinite_of_ofJson? (bounded_of_parse? hdocument) hspec
    rw [hread, ClassSpec.parse?_render hfinite]
  · intro text declarations hread
    obtain ⟨document, hdocument, hdeclarations⟩ := Option.bind_eq_some_iff.mp hread
    have hfinite := ClassDeclarations.isFinite_of_ofJson? (bounded_of_parse? hdocument)
      hdeclarations
    rw [hread, ClassDeclarations.parse?_render hfinite]

/-- A class with a half, an imported anchor and a method, and with some of what may be left out. -/
def halvingSpec : ClassSpec :=
  { descriptor := "Box"
    defaults := ["Object"]
    methods := [{ name := "size", implementation := "length" }]
    constants := [
      { name := "half", action := "eval", operands := [.double ⟨0x3FE0000000000000⟩, .int (-1)] }]
    importedAnchors := [{ owner := "Base", anchor := { name := "T", level := .ofClass } }] }

/-- The fields may stand in another order or be given by their position, and the numeral may be
another one. -/
theorem documents_readBack_half :
    ∃ (declarations : ClassDeclarations) (spec : ClassSpec) (text : String),
      halvingSpec.IsFinite ∧ halvingSpec.declarations.IsFinite ∧
        ClassSpec.parse? halvingSpec.toJson.render = some halvingSpec ∧
        ClassDeclarations.parse? halvingSpec.declarations.toJson.render =
          some halvingSpec.declarations ∧
        ClassSpec.parse? text = some spec ∧
        ClassDeclarations.parse? text = some declarations ∧
        ClassSpec.parse? spec.toJson.render = ClassSpec.parse? text ∧
        ClassDeclarations.parse? declarations.toJson.render = ClassDeclarations.parse? text := by
  let text := "\x7b\"class\":\"Box\",\"descriptor\":\"Box\",\"constants\":[[\"half\",\"eval\"," ++
    "[[\"double\",5e-1],\x7b\"value\":-1,\"kind\":\"int\"\x7d]]],\"anchors\":[]\x7d"
  have hfinite : halvingSpec.IsFinite := by
    simp [ClassSpec.IsFinite, Declaration.IsFinite, Operand.IsFinite, halvingSpec]
    decide
  obtain ⟨hspecs, hdeclarations, hspecTexts, hdeclarationTexts⟩ := documents_readBack
  obtain ⟨spec, hspec⟩ : ∃ spec, ClassSpec.parse? text = some spec :=
    Option.isSome_iff_exists.mp (by decide +kernel)
  obtain ⟨declarations, hread⟩ : ∃ declarations, ClassDeclarations.parse? text = some declarations :=
    Option.isSome_iff_exists.mp (by decide +kernel)
  exact ⟨declarations, spec, text, hfinite, hfinite, hspecs _ hfinite, hdeclarations _ hfinite, hspec,
    hread, hspecTexts _ _ hspec, hdeclarationTexts _ _ hread⟩

end Specialization
