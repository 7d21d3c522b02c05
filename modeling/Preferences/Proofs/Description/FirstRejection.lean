import Preferences.Proofs.Description.Reported

/-! # The first check that fails

A class is rejected by a check, and each check looks at one entry of one table: those of a class
stand in one list, with those of its preferences among them in their order (`classChecks`).  The
flaws of a class that are rejections come from its checks, in the same order (`Announces`), so a
document is rejected for the first class with a check that fails, and for the first one that fails
there (`declarations_rejected`).  The location is that of the table that was checked, and stands in
front of the reason once. -/

namespace Preferences.Description

/-! ### Checks -/

inductive PreferenceCheck
  | name
  | valueType
  | visibility
  | setter
  | remover
  deriving DecidableEq, Repr

/-- The checks of a preference, in order. -/
def PreferenceCheck.all : List PreferenceCheck := [name, valueType, visibility, setter, remover]

inductive Check
  /-- The class has a source, which refers to a type. -/
  | source
  /-- A check of the preference that a table describes. -/
  | preference (entries : Table) (check : PreferenceCheck)
  /-- The entry `interface` is a truth value. -/
  | interface
  /-- The hook is well declared. -/
  | hook
  /-- There are preferences. -/
  | preferences
  /-- A store other than the default one has a name. -/
  | storeName

/-- The tables that a walk through a value meets. -/
def tablesIn (value : Value) : List Table :=
  match value.elements with
  | .ok items => items.filterMap fun
    | .table entries => some entries
    | _ => none
  | .error _ => []

/-- The checks of a class, in order. -/
def classChecks (entries : Table) : List Check :=
  .source :: ((tablesIn ((Table.get? entries "preference").getD (.list []))).flatMap
      (fun t => PreferenceCheck.all.map (.preference t))
    ++ [.interface, .hook, .preferences, .storeName])

section flaws
variable (settings : Settings) (file : Option Path) (entries : Table)

/-- The name of a class as far as it is known. -/
def nameOf : Value :=
  match Table.get? entries "source" with
  | some (.text s) =>
    match typeRefOf s with
    | .ok source => ((classNameOf settings source (found entries "name")).toOption).getD .null
    | .error _ => .null
  | _ => .null

def sourceFlaws (location : Location) : Option Value → List Failure
  | none => [rejected location .missingSource]
  | some (.text s) =>
    match typeRefOf s with
    | .ok _ => []
    | .error reason => [rejected location reason]
  | some _ => [.misused .notText]

/-- The flaws that a check of a preference finds. -/
def PreferenceCheck.flaws : PreferenceCheck → List Failure
  | name => missingFlaws (placeOf file entries) entries "name"
  | valueType => missingFlaws (placeOf file entries) entries "type"
  | visibility =>
    visibilityFlaws (placeOf file entries) ((Table.get? entries "visibility").getD "public")
  | setter => mutatorFlaws (placeOf file entries) (found entries "setter")
  | remover => mutatorFlaws (placeOf file entries) (found entries "remover")

namespace Check

/-- The flaws that a check of a class finds. -/
def flaws : Check → List Failure
  | source => sourceFlaws (placeOf file entries) (Table.get? entries "source")
  | preference own check => check.flaws file own
  | interface => flagFlaws (placeOf file entries) entries "interface"
  | hook => hookFlaws (placeOf file entries) (found entries "post_construct")
  | preferences =>
    if isBare ((Table.get? entries "preference").getD (.list [])) then
      [rejected (placeOf file entries) (.noPreferences (nameOf settings entries))]
    else []
  | storeName =>
    if found entries "store" ≠ .null ∧ (found entries "store").isTruthy = false then
      [rejected (placeOf file entries) (.noStoreName (nameOf settings entries))]
    else []

/-- The location of the table that is checked. -/
def location : Check → Location
  | preference own _ => placeOf file own
  | _ => placeOf file entries

end Check

end flaws

/-! ### A check finds one flaw at most -/

/-- There is one flaw at most, and if it is a rejection it is at the location. -/
def FindsAt (location : Location) (flaws : List Failure) : Prop :=
  ∀ r, flaws.head? = some (.rejected r) → flaws = [.rejected r] ∧ r.location = some location

section findings
variable {settings : Settings} {file : Option Path} {location : Location} {entries : Table}

theorem findsAt_nil : FindsAt location [] := nofun

theorem findsAt_rejected (reason : Reason) : FindsAt location [rejected location reason] := by
  intro r head
  have same := (ofRejection_eq_rejected_iff.mp (Option.some.inj head)).2
  rw [← same]
  exact ⟨by rw [Option.some.inj head, same], rfl⟩

theorem findsAt_visibilityFlaws (value : Value) :
    FindsAt location (visibilityFlaws location value) := by
  unfold visibilityFlaws
  split_ifs
  · exact findsAt_nil
  · exact findsAt_rejected _

theorem findsAt_mutatorFlaws (value : Value) : FindsAt location (mutatorFlaws location value) := by
  cases value with
  | null | bool b | text s => exact findsAt_nil
  | table entries =>
      rw [mutatorFlaws]
      split_ifs
      · exact findsAt_visibilityFlaws _
      · exact findsAt_rejected _
  | _ => exact findsAt_rejected _

theorem findsAt_flagFlaws (key : String) : FindsAt location (flagFlaws location entries key) := by
  unfold flagFlaws
  split
  · exact findsAt_nil
  · exact findsAt_rejected _

theorem findsAt_hookFlaws (value : Value) : FindsAt location (hookFlaws location value) := by
  cases value with
  | null | text s => exact findsAt_nil
  | table entries =>
      rw [hookFlaws]
      split_ifs
      · exact findsAt_flagFlaws _
      · exact findsAt_rejected _
  | _ => exact findsAt_rejected _

theorem findsAt_sourceFlaws (given : Option Value) :
    FindsAt location (sourceFlaws location given) := by
  unfold sourceFlaws
  split
  · exact findsAt_rejected _
  · split
    · exact findsAt_nil
    · exact findsAt_rejected _
  · nofun

theorem PreferenceCheck.findsAt (check : PreferenceCheck) :
    FindsAt (placeOf file entries) (check.flaws file entries) := by
  have missing : ∀ key, FindsAt (placeOf file entries)
      (missingFlaws (placeOf file entries) entries key) := by
    intro key
    unfold missingFlaws
    split_ifs
    · exact findsAt_nil
    · exact findsAt_rejected _
  cases check with
  | name => exact missing "name"
  | valueType => exact missing "type"
  | visibility => exact findsAt_visibilityFlaws _
  | setter => exact findsAt_mutatorFlaws _
  | remover => exact findsAt_mutatorFlaws _

theorem Check.findsAt (check : Check) :
    FindsAt (check.location file entries) (check.flaws settings file entries) := by
  cases check with
  | source => exact findsAt_sourceFlaws _
  | preference own check => exact check.findsAt
  | interface => exact findsAt_flagFlaws _
  | hook => exact findsAt_hookFlaws _
  | preferences =>
      rw [flaws]
      split_ifs
      · exact findsAt_rejected _
      · exact findsAt_nil
  | storeName =>
      rw [flaws]
      split_ifs
      · exact findsAt_rejected _
      · exact findsAt_nil

end findings

/-! ### Flaws and checks -/

/-- No flaws, no findings; and if the first flaw is a rejection, it is the first finding. -/
structure Announces (flaws findings : List Failure) : Prop where
  nothing : flaws = [] → findings = []
  first : ∀ r, flaws.head? = some (.rejected r) → findings.head? = some (.rejected r)

theorem announces_self (flaws : List Failure) : Announces flaws flaws := ⟨id, fun _ => id⟩

theorem announces_misused (misuse : Misuse) (flaws findings : List Failure) :
    Announces (.misused misuse :: flaws) findings := ⟨nofun, nofun⟩

theorem Announces.append {flaws more findings others : List Failure}
    (h : Announces flaws findings) (later : Announces more others) :
    Announces (flaws ++ more) (findings ++ others) := by
  cases flaws with
  | nil =>
      rw [h.nothing rfl, List.nil_append, List.nil_append]
      exact later
  | cons flaw rest =>
      refine ⟨nofun, fun r head => ?_⟩
      rw [List.head?_append, h.first r head, Option.some_or]

theorem Announces.skip {flaws more others : List Failure} (h : Announces flaws [])
    (later : Announces more others) : Announces (flaws ++ more) others := h.append later

theorem announces_cons (flaw : Failure) (others : List Failure) :
    Announces [flaw] (flaw :: others) := ⟨nofun, fun _ => id⟩

/-- A walk announces what the checks of the tables that it meets find. -/
theorem announces_walk {flawsOf : Value → List Failure} {findingsOf : Table → List Failure}
    (tables : ∀ t, Announces (flawsOf (.table t)) (findingsOf t))
    (others : ∀ v, (∀ t, v ≠ .table t) → ∃ misuse, flawsOf v = [.misused misuse]) (value : Value) :
    Announces (elementFlaws flawsOf value) ((tablesIn value).flatMap findingsOf) := by
  unfold elementFlaws tablesIn
  cases value.elements with
  | error misuse => exact announces_misused misuse [] _
  | ok items =>
      dsimp only
      induction items with
      | nil => exact announces_self []
      | cons item rest ih =>
          rw [List.flatMap_cons, List.filterMap_cons]
          by_cases other : ∀ t, item ≠ .table t
          · obtain ⟨misuse, flaw⟩ := others item other
            rw [flaw]
            exact announces_misused misuse _ _
          · obtain ⟨t, rfl⟩ : ∃ t, item = .table t := by simpa using other
            exact (tables t).append ih

section announces
variable {settings : Settings} {file : Option Path} {entries : Table}

theorem announces_getterFlaws : Announces (getterFlaws settings entries) [] := by
  unfold getterFlaws
  split
  · exact announces_self []
  · split_ifs
    · exact announces_self []
    · exact announces_misused _ [] []

theorem announces_defaultFlaws (value : Value) : Announces (defaultFlaws value) [] := by
  unfold defaultFlaws
  split_ifs
  · exact announces_self []
  · exact announces_misused _ [] []

theorem preferenceFlaws_announce (entries : Table) :
    Announces (preferenceFlaws settings file (.table entries))
      (PreferenceCheck.all.flatMap (PreferenceCheck.flaws file entries)) := by
  have findings : PreferenceCheck.all.flatMap (PreferenceCheck.flaws file entries) =
      PreferenceCheck.name.flaws file entries ++ (PreferenceCheck.valueType.flaws file entries ++
        (PreferenceCheck.visibility.flaws file entries ++
          (PreferenceCheck.setter.flaws file entries ++
            PreferenceCheck.remover.flaws file entries))) := by
    simp [PreferenceCheck.all]
  rw [preferenceFlaws, findings]
  refine (announces_self _).append ((announces_self _).append ?_)
  refine announces_getterFlaws.skip ((announces_self _).append ?_)
  exact (announces_defaultFlaws _).skip (announces_self _)

/-- Of the last two checks of a class, the first one that fails makes the flaw of its draft. -/
theorem draftFlaws_announce (named : nameOf settings entries = name) :
    Announces (draftFlaws file entries name) (Check.preferences.flaws settings file entries ++
      Check.storeName.flaws settings file entries) := by
  unfold draftFlaws Check.flaws
  rw [named]
  split_ifs
  · exact announces_cons _ _
  · exact announces_cons _ _
  · exact announces_self _
  · exact announces_self _

theorem declarationFlaws_announce (entries : Table) :
    Announces (declarationFlaws settings file (.table entries))
      ((classChecks entries).flatMap (Check.flaws settings file entries)) := by
  have findings : (classChecks entries).flatMap (Check.flaws settings file entries) =
      Check.source.flaws settings file entries ++
        ((tablesIn ((Table.get? entries "preference").getD (.list []))).flatMap
            (fun t => PreferenceCheck.all.flatMap (PreferenceCheck.flaws file t))
          ++ (Check.interface.flaws settings file entries
          ++ (Check.hook.flaws settings file entries
          ++ (Check.preferences.flaws settings file entries
            ++ Check.storeName.flaws settings file entries)))) := by
    simp [classChecks, List.flatMap_assoc, List.flatMap_map, Check.flaws]
  rw [declarationFlaws, findings, Check.flaws]
  cases given : Table.get? entries "source" with
  | none => exact announces_cons _ _
  | some value =>
      cases value with
      | text s =>
          simp only [sourceFlaws]
          cases read : typeRefOf s with
          | error reason => exact announces_cons _ _
          | ok source =>
              simp only [classFlaws, List.nil_append]
              cases named : classNameOf settings source (found entries "name") with
              | error misuse => exact announces_misused misuse [] _
              | ok name =>
                  have known : nameOf settings entries = name := by
                    simp [nameOf, given, read, named, Except.toOption]
                  refine (announces_walk preferenceFlaws_announce ?_ _).append ?_
                  · intro v other
                    cases v with
                    | table t => exact absurd rfl (other t)
                    | _ => exact ⟨.notTable, rfl⟩
                  · refine (announces_self _).append ((announces_self _).append ?_)
                    exact draftFlaws_announce known
      | _ => exact announces_misused _ [] _

end announces

/-! ### What a document is rejected for -/

section rejected
variable {settings : Settings} {file : Option Path}

theorem passes_of_ok {value : Value} {d : Declaration}
    (read : declarationOf settings file value = .ok d) :
    ∃ entries, value = .table entries ∧
      ∀ check ∈ classChecks entries, check.flaws settings file entries = [] := by
  have meets : Meets _ (declarationFlaws settings file value) := declarationOf_meets value
  rw [read] at meets
  have none : declarationFlaws settings file value = [] := by
    cases flaws : declarationFlaws settings file value with
    | nil => rfl
    | cons flaw rest =>
        rw [flaws] at meets
        cases meets
  cases value with
  | table entries =>
      exact ⟨entries, rfl, List.flatMap_eq_nil_iff.mp ((declarationFlaws_announce entries).nothing
        none)⟩
  | _ => cases none

/-- A class that is rejected is rejected for the first check that fails. -/
theorem fails_of_rejected {value : Value} {r : Rejection}
    (failed : declarationOf settings file value = .error (.rejected r)) :
    ∃ entries, value = .table entries ∧ ∃ passed check later,
      classChecks entries = passed ++ check :: later ∧
      (∀ c ∈ passed, c.flaws settings file entries = []) ∧
      check.flaws settings file entries = [.rejected r] ∧
      r.location = some (check.location file entries) := by
  have head := (declarationOf_meets value).eq_error_iff.mp failed
  cases value with
  | table entries =>
      have found := (declarationFlaws_announce entries).first r head
      rw [List.head?_flatMap, List.findSome?_eq_some_iff] at found
      obtain ⟨passed, check, later, split, found, before⟩ := found
      obtain ⟨alone, located⟩ := check.findsAt r found
      refine ⟨entries, rfl, passed, check, later, split, fun c mem => ?_, alone, located⟩
      exact List.head?_eq_none_iff.mp (before c mem)
  | _ => cases head

end rejected

/-- **A rejection comes from the first check that fails, and tells where.**  If a document is
rejected, every class in front of one of them is read, and passes all its checks, and that one is
rejected for the first of its checks that fails.  The rejection is located at the table that was
checked, and its text is that location, a colon and the reason. -/
theorem declarations_rejected {settings : Settings} {file : Option Path} {document : Value}
    {r : Rejection} (failed : declarations settings file document = .error (.rejected r)) :
    ∃ classes before entries after, document = .table classes ∧
      ((Table.get? classes "class").getD (.list [])).elements =
        .ok (before ++ .table entries :: after) ∧
      (∀ earlier ∈ before, (∃ d, declarationOf settings file earlier = .ok d) ∧
        ∃ others, earlier = .table others ∧
          ∀ check ∈ classChecks others, check.flaws settings file others = []) ∧
      declarationOf settings file (.table entries) = .error (.rejected r) ∧
      ∃ passed check later, classChecks entries = passed ++ check :: later ∧
        (∀ c ∈ passed, c.flaws settings file entries = []) ∧
        check.flaws settings file entries = [.rejected r] ∧
        r.location = some (check.location file entries) ∧
        r.message = (check.location file entries).text ++ ": " ++ r.reason.message := by
  cases document with
  | table classes =>
      unfold declarations at failed
      simp only [lift_get?, ok_bind] at failed
      cases walked : ((Table.get? classes "class").getD (.list [])).elements with
      | error misuse =>
          rw [walked] at failed
          cases failed
      | ok items =>
          rw [walked, lift_ok, ok_bind] at failed
          obtain ⟨before, value, after, rfl, earlier, failed⟩ := mapM_eq_error_iff.mp failed
          obtain ⟨entries, rfl, passed, check, later, split, pass, alone, located⟩ :=
            fails_of_rejected failed
          refine ⟨classes, before, entries, after, rfl, walked, fun value mem => ?_, failed, passed,
            check, later, split, pass, alone, located, ?_⟩
          · obtain ⟨d, read⟩ := earlier value mem
            exact ⟨⟨d, read⟩, passes_of_ok read⟩
          · rw [Rejection.message, located]
            rfl
  | _ => cases failed

/-- A preference that has no type and an unknown visibility, on a line of its own. -/
def typelessTable : Table := [("name", "mode"), ("visibility", "secret"), ("line", .int 7)]

/-- Two classes: the second one has a preference that is well described, one that is not, and a flag
that is none. -/
def typelessDocument : Value :=
  .table [("class", .list [.table (classTable "app:Base" [("name", "age"), ("type", "int")]),
    .table [("source", "app:Raw"), ("line", .int 4), ("interface", .int 5),
      ("preference", .list [.table [("name", "age"), ("type", "int")], .table typelessTable])]])]

theorem typeless_rejected : declarations {} none typelessDocument =
    .error (.rejected ⟨.missingEntry "type", some ⟨none, .int 7⟩⟩) :=
  (declarations_meets typelessDocument).eq_error_iff.mpr (by with_unfolding_all rfl)

/-- The missing type is told, at the line of the preference, and neither its visibility nor the flag
of its class. -/
theorem declarations_rejected_typeless :
    declarations {} none typelessDocument =
      .error (.rejected ⟨.missingEntry "type", some ⟨none, .int 7⟩⟩) ∧
    Rejection.message ⟨.missingEntry "type", some ⟨none, .int 7⟩⟩ =
      "<unknown>:7: Preference is missing 'type'" ∧
    ∃ classes before entries after, typelessDocument = .table classes ∧
      ((Table.get? classes "class").getD (.list [])).elements =
        .ok (before ++ .table entries :: after) ∧
      ∃ passed check later, classChecks entries = passed ++ check :: later ∧
        (∀ c ∈ passed, c.flaws {} none entries = []) ∧
        some ⟨none, .int 7⟩ = some (check.location none entries) := by
  obtain ⟨classes, before, entries, after, document, elements, -, -, passed, check, later, split,
    pass, -, located, -⟩ := declarations_rejected typeless_rejected
  exact ⟨typeless_rejected, by decide +kernel, classes, before, entries, after, document, elements,
    passed, check, later, split, pass, located⟩

end Preferences.Description
