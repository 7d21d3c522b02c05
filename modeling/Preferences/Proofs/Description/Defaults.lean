import Preferences.Proofs.Description.Derived
import Preferences.Proofs.Generation.Wiring
import Preferences.Proofs.Value.ReadBack

/-! # Defaults that are no texts

The default of a preference is an expression, and a default that is no text stands in the getter as
it is written.  So the getter of a generated class hands that expression to the store, and the
expression has the value of the default exactly if there are literals for all its parts
(`declarations_defaults`): numbers that are not finite are written as names, and dates and times as
no expression at all (`infinite_default`). -/

namespace Preferences.Description

open Expression (evaluate?)

section reading
variable {settings : Settings} {file : Option Path} {item v : Value} {p : Preference}
  {g : Generator} {d : Declaration} {c : ClassDef}

theorem default_of_preferenceOf (read : preferenceOf settings file item = .ok p)
    (given : item.get? "default" = .ok (some v)) :
    p.default = v.plain ∧ v.isWritable = true := by
  cases item with
  | table entries =>
      have found : Table.get? entries "default" = some v := Except.ok.inj given
      obtain ⟨-, -, -, writable, same⟩ := preferenceOf_ok read
      rw [found] at writable same
      exact ⟨same, writable⟩
  | _ => cases given

theorem body_of_default (made : g.generate d = .ok c) (hp : p ∈ d.preferences)
    (given : p.default ≠ "") :
    ∃ m valueType method, c.method? p.getter.name = some m ∧ g.Stores p valueType method ∧
      m.body = ["return self._store." ++ method.get.plain ++ "(" ++ p.storageKey.literal ++ ", "
        ++ p.default ++ ")"] := by
  obtain ⟨valueType, method, stores, ⟨m, found, is_getter⟩, -, -⟩ :=
    (Generator.generate_wired made).1 p hp
  refine ⟨m, valueType, method, found, stores, ?_⟩
  rw [is_getter.body, if_neg given]

end reading

/-- **Defaults keep their value exactly if there are literals for it.**  Each preference of a
document whose default is a value other than a text has, in every class that is generated, a getter
that hands what is written for the default to the store; this is an expression of literals only if
no date, no time and no number that is not finite is anywhere in the default, and then it has the
value of the default. -/
theorem declarations_defaults {settings : Settings} {file : Option Path} {document : Value}
    {ds : List Declaration} (read : declarations settings file document = .ok ds) :
    List.Forall₂ (fun data d => List.Forall₂ (fun item p =>
        ∀ v, item.get? "default" = .ok (some v) → v.IsData → v.isText = false →
          (∀ (g : Generator) c, g.generate d = .ok c →
            ∃ m valueType method, c.method? p.getter.name = some m ∧
              g.Stores p valueType method ∧
              m.body = ["return self._store." ++ method.get.plain ++ "(" ++ p.storageKey.literal
                ++ ", " ++ v.plain ++ ")"]) ∧
          evaluate? v.plain.toList = if v.isLiteral then some v else none)
      (listed "preference" data) d.preferences) (listed "class" document) ds := by
  refine (declarations_ok read).imp fun data d read => ?_
  have each := declarationOf_ok read
  have members : List.Forall₂ (fun p item => p ∈ d.preferences ∧
      preferenceOf settings file item = .ok p) d.preferences (listed "preference" data) :=
    (List.forall₂_and_left _ _).mpr ⟨fun _ member => member, each.flip⟩
  refine members.flip.imp fun item p both v given data other => ?_
  obtain ⟨member, read⟩ := both
  obtain ⟨same, writable⟩ := default_of_preferenceOf read given
  refine ⟨fun g c made => ?_, Expression.evaluate?_plain data writable other⟩
  have nonempty := Expression.plain_ne_empty data writable other
  rw [← same] at nonempty ⊢
  exact body_of_default made member nonempty

/-- The table of a preference with this default. -/
def defaultTable (default : Value) : Value :=
  .table [("name", "age"), ("type", "float"), ("default", default)]

def defaultClass (default : Value) : Value :=
  .table [("source", "config:Settings"), ("preference", .list [defaultTable default])]

def defaultDocument (default : Value) : Value :=
  .table [("class", .list [defaultClass default])]

theorem listed_defaultDocument (default : Value) :
    listed "class" (defaultDocument default) = [defaultClass default] ∧
      listed "preference" (defaultClass default) = [defaultTable default] ∧
      (defaultTable default).get? "default" = .ok (some default) := by
  simp [listed, defaultDocument, defaultClass, defaultTable, Table.get?, Value.get?, Value.same,
    Value.sameAtom, Value.elements]

/-- A list with numbers and a table. -/
def nestedDefault : Value :=
  .list [.int (-1), .float (Binary64.ofDecimal false 25 (-1)), .table [("a", .bool true)]]

theorem nestedDefault_isData : nestedDefault.IsData :=
  ⟨trivial, trivial, ⟨Table.textKeyed_cons_iff.mpr ⟨rfl, by simp [Table.keys], Table.textKeyed_nil⟩,
    trivial, trivial⟩, trivial⟩

theorem declarations_defaults_nested : ∃ d c m p valueType method,
    declarations {} none (defaultDocument nestedDefault) = .ok [d] ∧ p ∈ d.preferences ∧
    ({} : Generator).generate d = .ok c ∧ c.method? p.getter.name = some m ∧
    ({} : Generator).Stores p valueType method ∧
    m.body = ["return self._store." ++ method.get.plain ++ "(" ++ p.storageKey.literal ++ ", "
      ++ "[-1, 2.5, \x7b'a': True\x7d]" ++ ")"] ∧
    evaluate? "[-1, 2.5, \x7b'a': True\x7d]".toList = some nestedDefault := by
  have fine : (declarations {} none (defaultDocument nestedDefault)).toOption.any (fun ds =>
      ds.all fun d => (({} : Generator).generate d).toOption.isSome) = true := by decide +kernel
  obtain ⟨ds, read⟩ := exists_ok_of_isSome (Option.isSome_of_any fine)
  obtain ⟨classes, preferences, given⟩ := listed_defaultDocument nestedDefault
  have each := declarations_defaults read
  rw [classes] at each
  obtain ⟨d, alone, inner, rest, rfl⟩ := List.forall₂_cons_left_iff.mp each
  obtain rfl := List.forall₂_nil_left_iff.mp rest
  rw [preferences] at inner
  obtain ⟨p, others, holds, -, same⟩ := List.forall₂_cons_left_iff.mp inner
  rw [read] at fine
  obtain ⟨c, made⟩ := exists_ok_of_isSome (List.all_eq_true.mp fine d List.mem_cons_self)
  obtain ⟨getters, value⟩ := holds nestedDefault given nestedDefault_isData rfl
  obtain ⟨m, valueType, method, found, stores, body⟩ := getters {} c made
  have plain : nestedDefault.plain = "[-1, 2.5, \x7b'a': True\x7d]" := by decide +kernel
  have literal : nestedDefault.isLiteral = true := by decide +kernel
  rw [plain] at body value
  rw [if_pos literal] at value
  exact ⟨d, c, m, p, valueType, method, read, same ▸ List.mem_cons_self, made, found, stores, body,
    value⟩

/-- An infinite default stands in the getter as a name. -/
theorem infinite_default : ∃ d c m,
    declarations {} none (defaultDocument (.float (Binary64.infinite false))) = .ok [d] ∧
    ({} : Generator).generate d = .ok c ∧ m ∈ c.methods ∧
    m.body = ["return self._store.get_float(\"age\", inf)"] ∧
    evaluate? "inf".toList = none ∧ Text.isIdentifier "inf".toList = true := by
  have fine : (declarations {} none
      (defaultDocument (.float (Binary64.infinite false)))).toOption.any (fun ds =>
        ds.length == 1 && ds.all fun d => (({} : Generator).generate d).toOption.any fun c =>
          c.methods.any (·.body == ["return self._store.get_float(\"age\", inf)"])) = true := by
    decide +kernel
  obtain ⟨ds, read⟩ := exists_ok_of_isSome (Option.isSome_of_any fine)
  rw [read] at fine
  obtain ⟨one, all⟩ := Bool.and_eq_true_iff.mp fine
  obtain ⟨d, rfl⟩ := List.length_eq_one_iff.mp (beq_iff_eq.mp one)
  have generated := List.all_eq_true.mp all d List.mem_cons_self
  obtain ⟨c, made⟩ := exists_ok_of_isSome (Option.isSome_of_any generated)
  rw [made] at generated
  obtain ⟨m, member, body⟩ := List.any_eq_true.mp generated
  exact ⟨d, c, m, read, made, member, beq_iff_eq.mp body, by decide +kernel, by decide +kernel⟩

end Preferences.Description
