import Calculator.Document.Config
import Calculator.Proofs.Json.Layout
import Calculator.Proofs.Json.Values

/-!
This module contains the theorem that a document of settings means nothing but the values of its
known fields, if the names of all its members are texts: how it is written, in which order and among
which other members does not matter. With a name that is no text it is malformed.
-/

namespace Calculator

namespace Json

theorem member?_eq_lookup {members : List (String × Json)} {name : String}
    (h : (members.map Prod.fst).count name ≤ 1) :
    member? members name = some (members.lookup name) := by
  unfold member?
  induction members with
  | nil => rfl
  | cons member members ih =>
    obtain ⟨first, json⟩ := member
    rw [List.map_cons] at h
    by_cases hname : first = name
    · subst hname
      rw [List.count_cons_self] at h
      have hnone : members.filter (·.1 = first) = [] := by
        rw [List.filter_eq_nil_iff]
        intro member hmem heq
        have hpos := List.count_pos_iff.mpr (List.mem_map_of_mem (f := Prod.fst) hmem)
        rw [of_decide_eq_true heq] at hpos
        omega
      rw [List.filter_cons_of_pos (by simp), hnone, List.lookup_cons_self]
    · rw [List.count_cons_of_ne hname] at h
      have hother : (name == first) = false := beq_eq_false_iff_ne.mpr (Ne.symm hname)
      rw [List.filter_cons_of_neg (by simp [hname]), ih h, List.lookup_cons, hother]

/--
Whether all names are texts. A name with a surrogate that has no partner is a string, but no text.
-/
def HasTextNames (members : List (Option String × Json)) : Prop :=
  ∀ member ∈ members, member.1.isSome

instance (members : List (Option String × Json)) : Decidable (HasTextNames members) :=
  inferInstanceAs (Decidable (∀ member ∈ members, member.1.isSome))

theorem HasTextNames.exists_named {members : List (Option String × Json)}
    (h : HasTextNames members) :
    ∃ named : List (String × Json), members = named.map fun (name, json) => (some name, json) := by
  induction members with
  | nil => exact ⟨[], rfl⟩
  | cons member members ih =>
    obtain ⟨name?, json⟩ := member
    obtain ⟨hname, hnames⟩ := List.forall_mem_cons.mp h
    obtain ⟨name, rfl⟩ := Option.isSome_iff_exists.mp hname
    obtain ⟨named, rfl⟩ := ih hnames
    exact ⟨(name, json) :: named, rfl⟩

theorem members?_eq_none {members : List (Option String × Json)} (h : ¬ HasTextNames members) :
    (object members).members? = none := by
  rw [members?]
  induction members with
  | nil => exact absurd (List.forall_mem_nil _) h
  | cons member members ih =>
    obtain ⟨name?, json⟩ := member
    rw [List.mapM_cons]
    cases name? with
    | none => rfl
    | some name =>
      have hnames : ¬ HasTextNames members := by
        intro hnames
        exact h (List.forall_mem_cons.mpr ⟨rfl, hnames⟩)
      rw [ih hnames]
      rfl

theorem lookup_some_named (named : List (String × Json)) (name : String) :
    (named.map fun (name, json) => (some name, json)).lookup (some name) = named.lookup name := by
  induction named with
  | nil => rfl
  | cons member named ih =>
    rw [List.map_cons, List.lookup_cons, ih, List.lookup_cons, Option.some_beq_some]

theorem count_some_named (named : List (String × Json)) (name : String) :
    ((named.map fun (name, json) => (some name, json)).map Prod.fst).count (some name)
      = (named.map Prod.fst).count name := by
  induction named with
  | nil => rfl
  | cons member named ih =>
    simp only [List.map_cons, List.count_cons, Option.some_beq_some, ih]
    rfl

/--
Whether two values are the same for all that a setting can be. A number with a sign, a fraction or
an exponent, an array and an object are none, whatever they hold.
-/
inductive Alike : Json → Json → Prop
  | same (json : Json) : Alike json json
  | number {left right : String} (hleft : left.toList.all Char.isDigit = false)
    (hright : right.toList.all Char.isDigit = false) : Alike (.number left) (.number right)
  | array (left right : List Json) : Alike (.array left) (.array right)
  | object (left right : List (Option String × Json)) : Alike (.object left) (.object right)

namespace Alike

variable {left right : Json}

theorem natural?_eq (h : Alike left right) : left.natural? = right.natural? := by
  cases h with
  | number hleft hright =>
    rw [natural?, natural?, hleft, hright]
    rfl
  | same | array | object => rfl

theorem string?_eq (h : Alike left right) : left.string? = right.string? := by
  cases h <;> rfl

theorem nullable_natural?_eq (h : Alike left right) :
    nullable natural? left = nullable natural? right := by
  cases h with
  | number hleft hright => exact congrArg (Option.map some) (natural?_eq (.number hleft hright))
  | same | array | object => rfl

end Alike

end Json

namespace Config

/--
The known fields with the values that stand for them when they are left out.
-/
def defaults : List (String × Json) :=
  [("maxFractionDigits", .number "10"), ("errorLabel", .string (some "Error")),
    ("historyLimit", .null)]

example : Json.ofMembers defaults = toJson {} := rfl

/--
The value of a known field in an object.
-/
def setting (members : List (Option String × Json)) (field : String × Json) : Json :=
  (members.lookup (some field.1)).getD field.2

/--
Whether a text is an object with some members, none of which is a known field a second time. Other
members may have any names, also ones that are no texts because of a surrogate without its partner.
-/
structure IsDocument (text : String) (members : List (Option String × Json)) : Prop where
  written : (Json.object members).WrittenAs text
  unique : ∀ field ∈ defaults, (members.map Prod.fst).count (some field.1) ≤ 1

/--
What the known fields come to. All of them are read before any of the rules for settings.
-/
def outcome (digits label limit : Json) : Except DocumentError Config :=
  match digits.natural?, label.string?, Json.nullable Json.natural? limit with
  | some maxFractionDigits, some errorLabel, some historyLimit? =>
    (validate { maxFractionDigits, errorLabel, historyLimit? }).mapError .invalid
  | _, _, _ => .error .malformed

/--
A field that is left out is as good as its default.
-/
theorem ofFields?_getD (digits? label? limit? : Option Json) :
    ofFields? digits? label? limit?
      = ofFields? (some (digits?.getD (.number "10"))) (some (label?.getD (.string (some "Error"))))
        (some (limit?.getD .null)) := by
  cases digits? <;> cases label? <;> cases limit? <;> rfl

theorem outcome_eq (digits label limit : Json) :
    outcome digits label limit
      = match ofFields? (some digits) (some label) (some limit) with
        | none => .error .malformed
        | some config => config.validate.mapError .invalid := by
  have hfields : ofFields? (some digits) (some label) (some limit)
      = digits.natural?.bind fun maxFractionDigits => label.string?.bind fun errorLabel =>
        (Json.nullable Json.natural? limit).bind fun historyLimit? =>
          some { maxFractionDigits, errorLabel, historyLimit? } := rfl
  rw [hfields, outcome]
  cases digits.natural? with
  | none => rfl
  | some maxFractionDigits =>
    cases label.string? with
    | none => rfl
    | some errorLabel => cases Json.nullable Json.natural? limit <;> rfl

theorem ofJson?_ofMembers {named : List (String × Json)}
    (hunique : ∀ field ∈ defaults, (named.map Prod.fst).count field.1 ≤ 1) :
    ofJson? (.ofMembers named)
      = ofFields? (named.lookup "maxFractionDigits") (named.lookup "errorLabel")
        (named.lookup "historyLimit") := by
  simp only [defaults, List.forall_mem_cons] at hunique
  obtain ⟨hdigits, hlabel, hlimit, -⟩ := hunique
  rw [ofJson?, Json.members?_ofMembers, Option.bind_eq_bind, Option.bind_some,
    Json.member?_eq_lookup hdigits, Json.member?_eq_lookup hlabel, Json.member?_eq_lookup hlimit]
  · rfl
  · nofun

theorem ofJson?_object_eq_none {members : List (Option String × Json)}
    (h : ¬ Json.HasTextNames members) : ofJson? (.object members) = none := by
  rw [ofJson?, Json.members?_eq_none h]
  · rfl
  · nofun

theorem IsDocument.ofText_eq {text : String} {members : List (Option String × Json)}
    (h : IsDocument text members) :
    ofText text
      = if Json.HasTextNames members then
          outcome (setting members ("maxFractionDigits", .number "10"))
            (setting members ("errorLabel", .string (some "Error")))
            (setting members ("historyLimit", .null))
        else .error .malformed := by
  rw [ofText, h.written.ofText?_eq, Option.bind_some]
  by_cases hnames : Json.HasTextNames members
  · obtain ⟨named, rfl⟩ := hnames.exists_named
    have hunique := h.unique
    simp only [Json.count_some_named] at hunique
    have hread := ofJson?_ofMembers hunique
    rw [Json.ofMembers] at hread
    rw [if_pos hnames, outcome_eq]
    simp only [setting, Json.lookup_some_named]
    rw [← ofFields?_getD]
    exact hread ▸ rfl
  · rw [if_neg hnames, ofJson?_object_eq_none hnames]

theorem outcome_eq_of_alike {digits digits' label label' limit limit' : Json}
    (hdigits : digits.Alike digits') (hlabel : label.Alike label') (hlimit : limit.Alike limit') :
    outcome digits label limit = outcome digits' label' limit' := by
  unfold outcome
  rw [hdigits.natural?_eq, hlabel.string?_eq, hlimit.nullable_natural?_eq]

theorem fault?_of_ofText {text : String} {config : Config} (h : ofText text = .ok config) :
    config.fault? = none := by
  unfold ofText at h
  split at h
  · cases h
  · next found _ =>
    unfold validate at h
    split at h
    · cases h
    · next hfault =>
      cases h
      exact hfault

theorem keeps_rules_of_fault? {config : Config} (h : config.fault? = none) :
    config.maxFractionDigits ≤ 17 ∧ config.errorLabel ≠ "" ∧ config.historyLimit? ≠ some 0 := by
  unfold fault? mostFractionDigits at h
  split_ifs at h with hdigits hlabel hlimit
  exact ⟨Nat.le_of_not_gt hdigits, hlabel, hlimit⟩

/--
Two documents with the same settings have the same outcome, and it depends on nothing else but on
whether all names are texts.
-/
theorem document_means_settings :
    (∀ text members, IsDocument text members →
      ofText text
        = if Json.HasTextNames members then
            outcome (setting members ("maxFractionDigits", .number "10"))
              (setting members ("errorLabel", .string (some "Error")))
              (setting members ("historyLimit", .null))
          else .error .malformed)
      ∧ (∀ text text' members members', IsDocument text members → IsDocument text' members' →
        (Json.HasTextNames members ↔ Json.HasTextNames members') →
        (∀ field ∈ defaults, (setting members field).Alike (setting members' field)) →
        ofText text = ofText text')
      ∧ ∀ text config, ofText text = .ok config →
        config.maxFractionDigits ≤ 17 ∧ config.errorLabel ≠ "" ∧ config.historyLimit? ≠ some 0 := by
  refine ⟨fun _ _ => IsDocument.ofText_eq, ?_, ?_⟩
  · intro text text' members members' h h' hnames halike
    simp only [defaults, List.forall_mem_cons] at halike
    obtain ⟨hdigits, hlabel, hlimit, -⟩ := halike
    rw [h.ofText_eq, h'.ofText_eq]
    exact if_congr hnames (outcome_eq_of_alike hdigits hlabel hlimit) rfl
  · intro text config h
    exact keeps_rules_of_fault? (fault?_of_ofText h)

theorem document_means_settings_escaped :
    let text := "\x7b\"errorLabel\":\"E\"\x7d"
    let members := [(some "errorLabel", .string (some "E"))]
    let text' :=
      " \x7b\"\":[\x7b\"errorLabel\":1\x7d],\"historyLimit\":null,\"errorLabel\":\"\\u0045\"\n\x7d"
    let members' := [(some "", .array [.object [(some "errorLabel", .number "1")]]),
      (some "historyLimit", .null), (some "errorLabel", .string (some "E"))]
    IsDocument text members ∧ IsDocument text' members'
      ∧ (Json.HasTextNames members ↔ Json.HasTextNames members')
      ∧ (∀ field ∈ defaults, (setting members field).Alike (setting members' field))
      ∧ ofText text = .ok { errorLabel := "E" } ∧ ofText text' = .ok { errorLabel := "E" }
      ∧ ({ errorLabel := "E" } : Config).errorLabel ≠ "" := by
  intro text members text' members'
  have hwellFormed : (Json.object members).IsWellFormed := by
    apply Json.IsWellFormed.object
    rw [List.forall_mem_singleton]
    exact .string _
  have hwellFormed' : (Json.object members').IsWellFormed := by
    apply Json.IsWellFormed.object
    simp only [members', List.forall_mem_cons]
    refine ⟨.array ?_, .null, .string _, nofun⟩
    rw [List.forall_mem_singleton]
    apply Json.IsWellFormed.object
    rw [List.forall_mem_singleton]
    exact .number rfl
  have hescaped : (Json.Piece.unit 0x45).Written ['\\', 'u', '0', '0', '4', '5'] := .unit rfl
  have hlayout : Json.Token.Layout (Json.object members').tokens _ :=
    .blank ' ' rfl <| .printed ((Json.object members').tokens.take 17) <|
      .string [(_, _)] (List.forall_mem_singleton.mpr hescaped) <|
      .blank '\n' rfl <| .printed [.endObject] <| .nil List.all_nil
  have hdocument : IsDocument text members := ⟨hwellFormed.writtenAs_text, by decide⟩
  have hdocument' : IsDocument text' members' := by
    refine ⟨⟨hwellFormed', ?_⟩, by decide⟩
    convert hlayout using 1
    decide +kernel
  have hnames : Json.HasTextNames members ↔ Json.HasTextNames members' := by decide
  have halike : ∀ field ∈ defaults, (setting members field).Alike (setting members' field) := by
    simp only [defaults, List.forall_mem_cons]
    exact ⟨.same _, .same _, .same _, nofun⟩
  have hread : ofText text = .ok { errorLabel := "E" } :=
    (document_means_settings.1 text members hdocument).trans rfl
  have hsame :=
    document_means_settings.2.1 text text' members members' hdocument hdocument' hnames halike
  exact ⟨hdocument, hdocument', hnames, halike, hread, hsame.symm.trans hread,
    (document_means_settings.2.2 text _ hread).2.1⟩

/--
An unknown member is not skipped if its name has a surrogate without its partner.
-/
theorem not_forall_documents_agree :
    ¬ ∀ text text' members members', IsDocument text members → IsDocument text' members' →
      (∀ field ∈ defaults, members.lookup (some field.1) = members'.lookup (some field.1)) →
      ofText text = ofText text' := by
  intro hagree
  have hwellFormed : (Json.object [(none, .number "1")]).IsWellFormed := by
    apply Json.IsWellFormed.object
    rw [List.forall_mem_singleton]
    exact .number rfl
  have hdocument : IsDocument "\x7b\"\\ud800\":1\x7d" [(none, .number "1")] :=
    ⟨hwellFormed.writtenAs_text, by decide⟩
  have hdocument' : IsDocument "\x7b\x7d" [] :=
    ⟨(Json.IsWellFormed.object (List.forall_mem_nil _)).writtenAs_text, by decide⟩
  have hrefused : ofText "\x7b\"\\ud800\":1\x7d" = .error .malformed := hdocument.ofText_eq
  have hread : ofText "\x7b\x7d" = .ok {} := hdocument'.ofText_eq
  have hsame := hagree _ _ _ _ hdocument hdocument' fun _ _ => rfl
  rw [hrefused, hread] at hsame
  cases hsame

end Config

end Calculator
