import Calculator.Proofs.Session.Run
import Calculator.Proofs.State.Recalculation

/-!
This module contains the theorem that the log of a session tells what happens to it: how the records
of one dispatched key look, and that the records of the successful calculations are the history.
-/

namespace Calculator

namespace Log

/--
The record that a dispatched key starts with.
-/
def enter (key : Key) : Record :=
  ⟨.trace, .session, "[ENTER] dispatch " ++ keyText key⟩

/--
The record that a dispatched key ends with, which leads from one session to another.
-/
def exit (before after : Session) : Record :=
  ⟨.trace, .session,
    if before.revision < after.revision then
      "[EXIT] dispatch rev=" ++ toString after.revision ++ " display="
        ++ quote '"' after.state.display.toList
    else
      "[EXIT] dispatch unchanged rev=" ++ toString after.revision⟩

theorem exit_of_lt {before after : Session} (h : before.revision < after.revision) :
    exit before after = (Event.changed after.revision after.state.display).record := by
  rw [exit, if_pos h]
  rfl

theorem exit_of_not_lt {before after : Session} (h : ¬before.revision < after.revision) :
    exit before after = (Event.unchanged after.revision).record := by
  rw [exit, if_neg h]
  rfl

/--
The messages about successful calculations since the history was last cleared, the newest first.
-/
def calculated (records : List Record) : List String :=
  (((records.rtakeWhile (· ≠ enter .clearHistory)).filter (·.level = .debug)).map
    Record.message).reverse

theorem calculated_concat_of_eq {record : Record} (h : record = enter .clearHistory)
    (records : List Record) : calculated (records ++ [record]) = [] := by
  rw [calculated, List.rtakeWhile_concat_neg _ _ _ (by simp [h])]
  rfl

theorem calculated_concat_of_ne {record : Record} (h : record ≠ enter .clearHistory)
    (records : List Record) :
    calculated (records ++ [record])
      = ([record].filter (·.level = .debug)).map Record.message ++ calculated records := by
  rw [calculated, List.rtakeWhile_concat_pos _ _ _ (by simp [h]), List.filter_append, List.map_append,
    List.reverse_append]
  congr 1
  by_cases hlevel : record.level = .debug <;> simp [hlevel]

theorem calculated_concat_of_level {record : Record} (h : record ≠ enter .clearHistory)
    (hlevel : record.level ≠ .debug) (records : List Record) :
    calculated (records ++ [record]) = calculated records := by
  rw [calculated_concat_of_ne h]
  simp [hlevel]

theorem prefix_toList_append (front back : String) : front.toList <+: (front ++ back).toList :=
  ⟨back.toList, String.toList_append.symm⟩

theorem calc_ne_enter (level : Level) (message : String) (key : Key) :
    ⟨level, .calc, message⟩ ≠ enter key := nofun

theorem keyText_eq_clearHistory {key : Key} (h : keyText key = keyText .clearHistory) :
    key = .clearHistory := by
  cases key with
  | clearHistory => rfl
  | clear | delete | calculate => exact absurd h (by decide)
  | digit symbol =>
    have hdigit := prefix_toList_append "Digit(" (quote '\'' [symbol] ++ ")")
    rw [← String.append_assoc] at hdigit
    rw [keyText] at h
    rw [h] at hdigit
    exact absurd hdigit (by decide)
  | operator symbol =>
    have hoperator := prefix_toList_append "Operator(" (quote '"' symbol.toList ++ ")")
    rw [← String.append_assoc] at hoperator
    rw [keyText] at h
    rw [h] at hoperator
    exact absurd hoperator (by decide)

theorem enter_ne {key : Key} (h : key ≠ .clearHistory) : enter key ≠ enter .clearHistory := by
  intro heq
  have hmessage := congrArg (fun record => record.message.toList) heq
  simp only [enter, String.toList_append] at hmessage
  exact h (keyText_eq_clearHistory (String.toList_inj.mp (List.append_cancel_left hmessage)))

theorem prefix_message_exit (before after : Session) :
    (if before.revision < after.revision then "[EXIT] dispatch rev="
      else "[EXIT] dispatch unchanged rev=").toList <+: (exit before after).message.toList := by
  unfold exit
  split
  · dsimp only
    rw [String.append_assoc, String.append_assoc]
    exact prefix_toList_append ..
  · exact prefix_toList_append ..

theorem exit_ne_enter (before after : Session) (key : Key) : exit before after ≠ enter key := by
  intro heq
  have hexit := prefix_message_exit before after
  have henter := prefix_toList_append "[ENTER] dispatch " (keyText key)
  rw [heq] at hexit
  split at hexit
  · exact absurd (List.prefix_of_prefix_length_le henter hexit (by decide)) (by decide)
  · exact absurd (List.prefix_of_prefix_length_le henter hexit (by decide)) (by decide)

/--
The record that a dispatched key ends with is none of a calculation.
-/
theorem calculated_dispatched (records : List Record) (key : Key) (report? : Option Record)
    (before after : Session) :
    calculated (records ++ (enter key :: report?.toList ++ [exit before after]))
      = calculated (records ++ [enter key] ++ report?.toList) := by
  rw [← List.append_assoc, ← List.singleton_append, ← List.append_assoc]
  exact calculated_concat_of_level (exit_ne_enter before after _) nofun _

/--
Only a record about a revision that did not grow says so.
-/
theorem saysUnchanged_exit_iff (before after : Session) :
    "[EXIT] dispatch unchanged".toList <+: (exit before after).message.toList
      ↔ ¬before.revision < after.revision := by
  have hexit := prefix_message_exit before after
  constructor
  · intro hunchanged hlt
    rw [if_pos hlt] at hexit
    exact absurd (List.prefix_of_prefix_length_le hexit hunchanged (by decide)) (by decide)
  · intro hlt
    rw [if_neg hlt] at hexit
    exact .trans (by decide) hexit

end Log

theorem Calculation.of_empty {config : Config} {buffer : String} (h : buffer = "") :
    Calculation.of config buffer = .nothing := by
  unfold Calculation.of
  exact if_pos h

namespace Session

namespace Step

def records (step : Step) : List Log.Record := step.log.map Log.Event.record

theorem records_andThen (first : Step) (request : Session → Step) :
    (first.andThen request).records = first.records ++ (request first.session).records :=
  List.map_append

end Step

variable (session : Session) (key : Key)

/--
The record of the calculation that a key starts, if it starts one.
-/
def report? : Option Log.Record :=
  (Log.Event.ofKey? session.config session.state key).map Log.Event.record

theorem records_replace (next : State) :
    (session.replace next).records = [Log.exit session (session.replace next).session] := by
  unfold replace
  split
  · rw [Log.exit_of_not_lt (Nat.lt_irrefl _)]
    rfl
  · rw [Log.exit_of_lt (Nat.lt_succ_self _)]
    rfl

theorem records_dispatch :
    (session.dispatch key).records
      = Log.enter key :: (session.report? key).toList
        ++ [Log.exit session (session.dispatch key).session] := by
  rw [session_dispatch, ← records_replace]
  unfold dispatch Step.records report?
  simp only [List.map_append, List.map_cons, Option.toList_map]
  rfl

/--
What the record of a calculation has to do with the states around a key.
-/
inductive Reports (config : Config) (before after : State) : Key → Option Log.Record → Prop
  | silent {key : Key} (hcalculate : key = .calculate → before.displayText = "")
    (hhistory : after.history.entries = if key = .clearHistory then [] else before.history.entries) :
    Reports config before after key none
  | succeeded {value : Binary64} (hnonempty : before.displayText ≠ "")
    (hvalue : Expr.evaluate before.displayText = .ok value)
    (hhistory : after.history.entries
      = config.kept (History.entry before.displayText after.displayText :: before.history.entries)) :
    Reports config before after .calculate
      (some ⟨.debug, .calc, History.entry before.displayText after.displayText⟩)
  | failed {cause : SyntaxError} (hnonempty : before.displayText ≠ "")
    (hcause : Expr.evaluate before.displayText = .error cause)
    (hhistory : after.history.entries = before.history.entries) :
    Reports config before after .calculate
      (some ⟨.warn, .calc,
        "could not evaluate '" ++ before.displayText ++ "': " ++ cause.message⟩)

/--
What the record of a calculation tells about a key and the states around it.
-/
structure Tells (config : Config) (before after : State) (key : Key) (report? : Option Log.Record) :
    Prop where
  calculation : ∀ report ∈ report?,
    report.target = .calc ∧ (report.level = .debug ∨ report.level = .warn)
  debug_iff : (∃ report ∈ report?, report.level = .debug)
    ↔ key = .calculate ∧ ∃ value, Expr.evaluate before.displayText = .ok value
  warn_iff : (∃ report ∈ report?, report.level = .warn)
    ↔ key = .calculate ∧ before.displayText ≠ ""
      ∧ ∃ cause, Expr.evaluate before.displayText = .error cause
  entry : ∀ report ∈ report?, report.level = .debug →
    report.message = before.displayText ++ " = " ++ after.displayText
      ∧ after.history.entries = config.kept (report.message :: before.history.entries)

theorem Reports.tells {config : Config} {before after : State} {key : Key}
    {report? : Option Log.Record} (h : Reports config before after key report?) :
    Tells config before after key report? := by
  cases h with
  | silent hcalculate =>
    refine ⟨nofun, ⟨nofun, ?_⟩, ⟨nofun, ?_⟩, nofun⟩
    · rintro ⟨hkey, value, hvalue⟩
      rw [hcalculate hkey] at hvalue
      cases hvalue
    · rintro ⟨hkey, hnonempty, -⟩
      exact absurd (hcalculate hkey) hnonempty
  | succeeded hnonempty hvalue hhistory =>
    refine ⟨?_, ⟨fun _ => ⟨rfl, _, hvalue⟩, fun _ => ⟨_, rfl, rfl⟩⟩, ⟨?_, ?_⟩, ?_⟩
    · rintro _ ⟨⟩
      exact ⟨rfl, .inl rfl⟩
    · rintro ⟨_, ⟨⟩, ⟨⟩⟩
    · rintro ⟨-, -, cause, hcause⟩
      rw [hvalue] at hcause
      cases hcause
    · rintro _ ⟨⟩ -
      exact ⟨rfl, hhistory⟩
  | failed hnonempty hcause hhistory =>
    refine ⟨?_, ⟨?_, ?_⟩, ⟨fun _ => ⟨rfl, hnonempty, _, hcause⟩, fun _ => ⟨_, rfl, rfl⟩⟩, ?_⟩
    · rintro _ ⟨⟩
      exact ⟨rfl, .inr rfl⟩
    · rintro ⟨_, ⟨⟩, ⟨⟩⟩
    · rintro ⟨-, value, hvalue⟩
      rw [hcause] at hvalue
      cases hvalue
    · rintro _ ⟨⟩ ⟨⟩

theorem reports_press :
    Reports session.config session.state (session.state.press session.config key) key
      (session.report? key) := by
  have heffect := State.effect_press session.config session.state key
  generalize session.state.press session.config key = next at heffect ⊢
  unfold report?
  cases heffect with
  | edit hedit =>
    cases key with
    | digit | operator | delete => exact .silent nofun rfl
    | clear | calculate | clearHistory => cases hedit
  | clear => exact .silent nofun rfl
  | nothing hempty =>
    rw [Log.Event.ofKey?, Calculation.of_empty hempty]
    exact .silent (fun _ => hempty) rfl
  | success hnonempty hvalue =>
    rw [Log.Event.ofKey?, Calculation.of_eq_success hvalue]
    exact .succeeded hnonempty hvalue (State.entries_recorded ..)
  | failure hnonempty hcause =>
    rw [Log.Event.ofKey?, Calculation.of_eq_failure hnonempty hcause]
    exact .failed hnonempty hcause rfl
  | clearHistory => exact .silent nofun rfl

/--
The history stays the log of the successful calculations when a key is dispatched.
-/
theorem entries_dispatch {records : List Log.Record}
    (h : session.state.history.entries = session.config.kept (Log.calculated records)) :
    (session.dispatch key).session.state.history.entries
      = session.config.kept (Log.calculated (records ++ (session.dispatch key).records)) := by
  rw [records_dispatch, Log.calculated_dispatched, state_dispatch]
  have hreports := reports_press session key
  generalize session.state.press session.config key = next at hreports ⊢
  generalize session.report? key = report? at hreports ⊢
  cases hreports with
  | silent hcalculate hhistory =>
    rw [hhistory, Option.toList_none, List.append_nil]
    by_cases hkey : key = .clearHistory
    · rw [if_pos hkey, Log.calculated_concat_of_eq (congrArg Log.enter hkey), Config.kept_nil]
    · rw [if_neg hkey, Log.calculated_concat_of_level (Log.enter_ne hkey) nofun, h]
  | succeeded hnonempty hvalue hhistory =>
    have henter : Log.enter .calculate ≠ Log.enter .clearHistory := Log.enter_ne nofun
    rw [hhistory, Option.toList_some, Log.calculated_concat_of_ne (Log.calc_ne_enter .debug _ _),
      Log.calculated_concat_of_level henter nofun, h, Config.kept_cons_kept]
    rfl
  | failed hnonempty hcause hhistory =>
    have henter : Log.enter .calculate ≠ Log.enter .clearHistory := Log.enter_ne nofun
    rw [hhistory, Option.toList_some,
      Log.calculated_concat_of_level (Log.calc_ne_enter .warn _ _) nofun,
      Log.calculated_concat_of_level henter nofun, h]

/--
A run of a session opens it and serves some requests.
-/
def run (config : Config) (requests : List Request) : Step :=
  (new config).andThen (·.serveAll requests)

theorem run_concat (config : Config) (requests : List Request) (request : Request) :
    run config (requests ++ [request]) = (run config requests).andThen (·.serve request) := by
  simp only [run, Step.andThen, serveAll_concat, List.append_assoc]

theorem entries_eq_kept_calculated (config : Config) (requests : List Request) :
    (run config requests).session.state.history.entries
      = config.kept (Log.calculated (run config requests).records) := by
  induction requests using List.reverseRecOn with
  | nil => exact (Config.kept_nil config).symm
  | append_singleton requests request ih =>
    have hconfig : (run config requests).session.config = config := config_serveAll _ requests
    rw [run_concat, Step.records_andThen]
    generalize run config requests = step at ih hconfig ⊢
    subst hconfig
    cases request with
    | subscribe =>
      have hrecords : (step.session.serve .subscribe).records = [] := rfl
      rw [hrecords, List.append_nil]
      exact ih
    | dispatch key => exact entries_dispatch step.session key ih

/--
The records of a dispatched key are one of its entry, at most one of a calculation and one of its
exit. In a run, what the log says about successful calculations is the history.
-/
theorem log_agrees :
    (∀ (session : Session) (key : Key), ∃ report? : Option Log.Record,
      (session.dispatch key).records
          = Log.enter key :: report?.toList ++ [Log.exit session (session.dispatch key).session]
        ∧ Tells session.config session.state (session.dispatch key).session.state key report?
        ∧ ("[EXIT] dispatch unchanged".toList
              <+: (Log.exit session (session.dispatch key).session).message.toList
            ↔ (session.dispatch key).session.revision = session.revision))
      ∧ ∀ (config : Config) (requests : List Request),
        (run config requests).session.state.history.entries
            = config.kept (Log.calculated (run config requests).records)
          ∧ (config.historyLimit? = none →
            (run config requests).session.state.history.entries
              = Log.calculated (run config requests).records) := by
  constructor
  · intro session key
    refine ⟨session.report? key, records_dispatch session key, ?_, ?_⟩
    · rw [state_dispatch]
      exact (reports_press session key).tells
    · rw [Log.saysUnchanged_exit_iff, session_dispatch, session_replace]
      dsimp only
      split <;> omega
  · intro config requests
    have hentries := entries_eq_kept_calculated config requests
    refine ⟨hentries, fun hlimit => ?_⟩
    unfold Config.kept at hentries
    rw [hlimit] at hentries
    exact hentries

theorem log_agrees_cleared :
    let requests := [.dispatch (.digit '7'), .dispatch .calculate, .dispatch .clearHistory,
      .subscribe, .dispatch (.operator "("), .dispatch .calculate, .dispatch (.digit '2'),
      .dispatch .calculate, .dispatch (.digit '3'), .dispatch .calculate]
    (run {} requests).session.state.history.entries = ["3 = 3", "2 = 2"]
      ∧ Log.calculated (run {} requests).records = ["3 = 3", "2 = 2"] := by
  intro requests
  have hentries : (run {} requests).session.state.history.entries = ["3 = 3", "2 = 2"] := by
    decide +kernel
  refine ⟨hentries, ?_⟩
  rw [← (log_agrees.2 {} requests).2 rfl]
  exact hentries

end Session

end Calculator
