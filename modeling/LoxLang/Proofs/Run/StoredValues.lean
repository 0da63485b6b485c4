import LoxLang.Proofs.ControlState

/-!
# What every value of a store is like

Much of what is shown of runs is that their values are good in some sense: the
functions have no loops, their names are in scope, the instances exist. Whatever
that means, the values of a store are good after each of its operations if they
were before and the value that was put in is (`Store.Every`). A class is good if
all the methods are that it has or inherits (`Class.Every`).
-/

namespace LoxLang

set_option autoImplicit false

/-! ## Classes -/

/-- Every method in the tables of a class is good. -/
def Class.Every (good : Closure → Prop) (cls : Class) : Prop :=
  ∀ table ∈ cls.tables, ∀ name method, table.find? name = some method → good method

theorem Class.Every.findMethod? {good : Closure → Prop} {cls : Class} (every : cls.Every good)
    {name : String} {method : Closure} (found : cls.findMethod? name = some method) :
    good method := by
  obtain ⟨table, member, here⟩ := List.exists_of_findSome?_eq_some found
  exact every table member name method here

theorem Class.Every.mono {good better : Closure → Prop} {cls : Class} (every : cls.Every good)
    (improves : ∀ method, good method → better method) : cls.Every better :=
  fun table member name method found => improves method (every table member name method found)

/-- A class of good methods below a good class. -/
theorem Store.every_newClass {good : Closure → Prop} (store : Store) (name : String)
    {superclass : Option Class} {own : MethodTable}
    (above : ∀ parent, superclass = some parent → parent.Every good)
    (methods : ∀ name method, own.find? name = some method → good method) :
    (store.newClass name superclass own).1.Every good := by
  intro table member
  rcases List.mem_cons.mp member with rfl | inherited
  · exact methods
  · cases superclass with
    | none => cases inherited
    | some parent => exact above parent rfl table inherited

/-- Every method in the table of a class is one of its declarations of that
name, closed over the environment of the class. -/
theorem Eval.exists_of_find?_methodTable {env : Env} {name : String} {method : Closure}
    {declarations : List FunctionDecl}
    (found : (Eval.methodTable env declarations).find? name = some method) :
    ∃ declaration ∈ declarations, declaration.name.lexeme = name ∧
      method = ⟨declaration, env, declaration.isInitializer⟩ := by
  -- putting in one more method keeps those in the table, or replaces them
  have general : ∀ (rest : List FunctionDecl) (table : MethodTable),
      (∀ name method, table.find? name = some method →
        ∃ declaration ∈ declarations, declaration.name.lexeme = name ∧
          method = ⟨declaration, env, declaration.isInitializer⟩) →
      (∀ declaration ∈ rest, declaration ∈ declarations) →
      ∀ name method, Bindings.find? name (rest.foldl (fun table declaration =>
          table.insert declaration.name.lexeme
            (⟨declaration, env, declaration.isInitializer⟩ : Closure)) table) = some method →
        ∃ declaration ∈ declarations, declaration.name.lexeme = name ∧
          method = ⟨declaration, env, declaration.isInitializer⟩ := by
    intro rest
    induction rest with
    | nil => exact fun _ earlier _ => earlier
    | cons first others ih =>
        intro table earlier among
        refine ih _ (fun name method found => ?_) fun declaration member =>
          among declaration (List.mem_cons_of_mem first member)
        by_cases same : name = first.name.lexeme
        · rw [same, Bindings.find?_insert_self] at found
          cases found
          exact ⟨first, among first List.mem_cons_self, same.symm, rfl⟩
        · rw [Bindings.find?_insert_of_ne same] at found
          exact earlier name method found
  exact general declarations [] (by simp) (fun _ member => member) name method found

/-! ## Stores -/

/-- Every value in the store is good. -/
structure Store.Every (good : Value → Prop) (store : Store) : Prop where
  bound : ∀ frame name value, store.findIn? frame name = some value → good value
  fields : ∀ object name value, store.field? object name = some value → good value

namespace Store

theorem findIn?_initial (frame : Env) (name : String) : initial.findIn? frame name = none := by
  cases frame <;> rfl

/-- What an instance holds after a field was set: the new value or what was
there before. -/
theorem field?_setField {store : Store} {object other : Instance} {name found : String}
    {value content : Value}
    (here : (store.setField object name value).field? other found = some content) :
    content = value ∨ store.field? other found = some content := by
  simp only [setField, field?, Array.getElem?_modify] at here ⊢
  by_cases same : object.id = other.id
  · rw [if_pos same] at here
    cases old : store.fields[other.id]? with
    | none =>
        rw [old] at here
        cases here
    | some bindings =>
        rw [old] at here
        by_cases names : found = name
        · subst names
          simp only [Option.map_some, Bindings.find?_insert_self, Option.some.injEq] at here
          exact .inl here.symm
        · simp only [Option.map_some, Bindings.find?_insert_of_ne names] at here
          exact .inr here
  · rw [if_neg same] at here
    exact .inr here

/-- A new instance has no fields. -/
theorem field?_newInstance {store : Store} {cls : Class} {object : Instance} {name : String}
    {value : Value} (found : (store.newInstance cls).2.field? object name = some value) :
    store.field? object name = some value := by
  simp only [newInstance, field?, Array.getElem?_push] at found ⊢
  split at found
  next bindings here =>
    split at here
    · cases here
      cases found
    · rw [here]
      exact found
  next => cases found

theorem fields_defineAll (frame : Env) : ∀ (names : List String) (values : List Value)
    (store : Store), (store.defineAll frame names values).fields = store.fields
  | [], _, _ => rfl
  | _ :: _, [], _ => rfl
  | _ :: names, _ :: values, _ => fields_defineAll frame names values _

/-- What a frame holds after names were bound: one of the values or what was
there before. -/
theorem findIn?_defineAll (frame : Env) : ∀ (names : List String) (values : List Value)
    {store : Store} {other : Env} {name : String} {value : Value},
      (store.defineAll frame names values).findIn? other name = some value →
        value ∈ values ∨ store.findIn? other name = some value
  | [], _, _, _, _, _, found => .inr found
  | _ :: _, [], _, _, _, _, found => .inr found
  | _ :: names, first :: values, _, _, _, _, found => by
      rcases findIn?_defineAll frame names values found with later | earlier
      · exact .inl (List.mem_cons_of_mem first later)
      · rw [define, findIn?_bindIn] at earlier
        split at earlier
        · cases earlier
          exact .inl List.mem_cons_self
        · exact .inr earlier

namespace Every

variable {good better : Value → Prop} {store : Store}

theorem mono (every : store.Every good) (improves : ∀ value, good value → better value) :
    store.Every better :=
  ⟨fun frame name value found => improves value (every.bound frame name value found),
    fun object name value found => improves value (every.fields object name value found)⟩

theorem bindIn (every : store.Every good) (frame : Env) (name : String) {value : Value}
    (new : good value) : (store.bindIn frame name value).Every good where
  bound other found content here := by
    rw [findIn?_bindIn] at here
    split at here
    · cases here
      exact new
    · exact every.bound _ _ _ here
  fields := every.fields

/-- In a new store there are only the built-in functions. -/
theorem start (native : ∀ function, good (.native function)) :
    (initial.define Env.global "clock" (.native .clock)).Every good := by
  refine Every.bindIn ⟨fun frame name value found => ?_, fun _ _ _ found => ?_⟩ _ _ (native .clock)
  · rw [findIn?_initial] at found
    cases found
  · cases found

theorem child (every : store.Every good) (env : Env) : (store.child env).2.Every good where
  bound frame name value found := by
    rw [findIn?_child] at found
    exact every.bound _ _ _ found
  fields := every.fields

theorem childWith (every : store.Every good) (env : Env) (names : List String)
    {values : List Value} (new : ∀ value ∈ values, good value) :
    ((store.child env).2.defineAll (store.child env).1 names values).Every good where
  bound frame name value found := by
    rcases findIn?_defineAll _ _ _ found with passed | old
    · exact new value passed
    · exact (every.child env).bound _ _ _ old
  fields object name value found := by
    rw [field?, fields_defineAll] at found
    exact every.fields object name value found

theorem bindMethod (every : store.Every good) (method : Closure) {object : Instance}
    (receiver : good (.object object)) : (store.bindMethod method object).2.Every good :=
  every.childWith method.env ["this"] (List.forall_mem_singleton.mpr receiver)

theorem newInstance (every : store.Every good) (cls : Class) :
    (store.newInstance cls).2.Every good where
  bound := every.bound
  fields object name value found := every.fields object name value (field?_newInstance found)

theorem setField (every : store.Every good) (object : Instance) (name : String) {value : Value}
    (new : good value) : (store.setField object name value).Every good where
  bound := every.bound
  fields other found content here := by
    rcases field?_setField here with rfl | old
    · exact new
    · exact every.fields other found content old

end Every

end Store

end LoxLang
