import Calculator.Document.Config
import Calculator.Document.Key
import Calculator.Document.State
import Calculator.Proofs.Json.Reading
import Calculator.Proofs.Json.Values

/-!
This module contains the theorem that documents are read back: a state and a key come back as they
were written, and settings come back if they keep the rules for settings.
-/

namespace Calculator

namespace State

theorem isWellFormed_toJson (state : State) : state.toJson.IsWellFormed := by
  apply Json.isWellFormed_ofMembers
  simp only [List.forall_mem_cons]
  exact ⟨.string _, Json.isWellFormed_ofStrings _, .bool _,
    Json.isWellFormed_ofOption (fun _ => .string _) _, nofun⟩

theorem ofJson?_toJson (state : State) : ofJson? state.toJson = some state := by
  have hfields : ofJson? state.toJson
      = ofFields? (.ofString state.displayText) (.ofStrings state.history.entries)
          (.bool state.isResult) (.ofOption (state.error?.map .ofString)) := rfl
  have herror : Json.nullable Json.string? (.ofOption (state.error?.map .ofString))
      = some state.error? := Json.nullable_ofOption (fun _ _ => rfl) nofun
  rw [hfields, ofFields?, Json.strings?_ofStrings, herror]
  rfl

theorem ofText?_text (state : State) : ofText? state.toJson.text = some state := by
  rw [ofText?, state.isWellFormed_toJson.ofText?_text, Option.bind_some, ofJson?_toJson]

end State

namespace Key

theorem isWellFormed_toJson (key : Key) : key.toJson.IsWellFormed := by
  apply Json.isWellFormed_ofMembers
  rw [List.forall_mem_cons, List.forall_mem_map]
  exact ⟨.string _, fun _ _ => .string _⟩

theorem ofJson?_toJson (key : Key) : ofJson? key.toJson = some key := by
  cases key with
  | digit symbol =>
    have hfields : ofJson? (toJson (.digit symbol))
        = ofFields? "Digit" (.ofString (String.singleton symbol)) := rfl
    rw [hfields, Json.ofString, ofFields?, String.toList_singleton]
  | operator symbol => rfl
  | clear | delete | calculate | clearHistory => rfl

theorem ofText?_text (key : Key) : ofText? key.toJson.text = some key := by
  rw [ofText?, key.isWellFormed_toJson.ofText?_text, Option.bind_some, ofJson?_toJson]

end Key

namespace Config

/--
Whether the numbers of some settings fit into 64 bits.
-/
structure FitsWord (config : Config) : Prop where
  digits : config.maxFractionDigits < Nat.pow 2 64
  limit : ∀ limit ∈ config.historyLimit?, limit < Nat.pow 2 64

theorem isWellFormed_toJson (config : Config) : config.toJson.IsWellFormed := by
  apply Json.isWellFormed_ofMembers
  simp only [List.forall_mem_cons]
  exact ⟨Json.isWellFormed_ofNat _, .string _,
    Json.isWellFormed_ofOption Json.isWellFormed_ofNat _, nofun⟩

theorem ofJson?_toJson {config : Config} (h : config.FitsWord) :
    ofJson? config.toJson = some config := by
  have hfields : ofJson? config.toJson
      = ofFields? (some (.ofNat config.maxFractionDigits)) (some (.ofString config.errorLabel))
          (some (.ofOption (config.historyLimit?.map .ofNat))) := by
    rw [toJson, ofJson?, Json.members?_ofMembers]
    · simp [Json.member?]
    · nofun
  have hlimit : Json.nullable Json.natural? (.ofOption (config.historyLimit?.map .ofNat))
      = some config.historyLimit? :=
    Json.nullable_ofOption (fun limit hmem => Json.natural?_ofNat (h.limit limit hmem)) nofun
  rw [hfields, ofFields?, fieldOr, fieldOr, fieldOr, Json.natural?_ofNat h.digits, hlimit]
  rfl

theorem ofText_text {config : Config} (h : config.FitsWord) :
    ofText config.toJson.text = config.validate.mapError .invalid := by
  rw [ofText, config.isWellFormed_toJson.ofText?_text, Option.bind_some, ofJson?_toJson h]

/--
Written settings are refused for the first rule they break, in the order of the fields.
-/
theorem ofText_text_eq_ite {config : Config} (h : config.FitsWord) :
    ofText config.toJson.text
      = if mostFractionDigits < config.maxFractionDigits then
          .error (.invalid (.tooManyFractionDigits config.maxFractionDigits))
        else if config.errorLabel = "" then .error (.invalid .emptyErrorLabel)
        else if config.historyLimit? = some 0 then .error (.invalid .zeroHistoryLimit)
        else .ok config := by
  rw [ofText_text h, validate, fault?]
  split_ifs <;> rfl

end Config

/--
A document that is written is read again. Settings whose numbers fit are never malformed, so they
come back unless they break a rule.
-/
theorem documents_read_back :
    (∀ state : State, State.ofText? state.toJson.text = some state) ∧
    (∀ key : Key, Key.ofText? key.toJson.text = some key) ∧
    ∀ config : Config, config.FitsWord →
      Config.ofText config.toJson.text = config.validate.mapError .invalid ∧
      Config.ofText config.toJson.text
        = if Config.mostFractionDigits < config.maxFractionDigits then
            .error (.invalid (.tooManyFractionDigits config.maxFractionDigits))
          else if config.errorLabel = "" then .error (.invalid .emptyErrorLabel)
          else if config.historyLimit? = some 0 then .error (.invalid .zeroHistoryLimit)
          else .ok config :=
  ⟨State.ofText?_text, Key.ofText?_text,
    fun _ h => ⟨Config.ofText_text h, Config.ofText_text_eq_ite h⟩⟩

/--
The largest number that fits is read, and refused before the other two faults.
-/
theorem documents_read_back_largest :
    Config.FitsWord ⟨18446744073709551615, "", some 0⟩
      ∧ Config.ofText (Config.toJson ⟨18446744073709551615, "", some 0⟩).text
        = .error (.invalid (.tooManyFractionDigits 18446744073709551615)) := by
  have hfits : Config.FitsWord ⟨18446744073709551615, "", some 0⟩ :=
    ⟨by decide, by decide⟩
  refine ⟨hfits, ?_⟩
  rw [(documents_read_back.2.2 _ hfits).2]
  rfl

end Calculator
