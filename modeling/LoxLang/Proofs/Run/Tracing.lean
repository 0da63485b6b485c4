import LoxLang.Proofs.Run.Provenance
import LoxLang.Proofs.Run.Soundness

/-!
# Runs on a store that is traced

A moment is traced if its store is, if the uses of `this` and `super` in its
task are covered by activations around the current environment, and if the
values it was handed are traced (`Moment.Traced`). This is a discipline of
evaluation (`tracing_laws`), so every moment of a run is traced, and so is the
store that the run leaves (`Moment.Traced.visits`, `Moment.Traced.ends`).
-/

namespace LoxLang

set_option autoImplicit false

open Resolution

/-! ## Steps -/

/-- What a task leaves behind, whichever way it ends. -/
structure Machine.Carried (record : Chronicle) (before after : Machine) : Prop where
  env : after.env = before.env
  store : before.store.Extends after.store
  traced : after.store.Traced record

namespace Machine

variable {record : Chronicle}

theorem Carried.refl {machine : Machine} (traced : machine.store.Traced record) :
    machine.Carried record machine :=
  ⟨rfl, .refl _, traced⟩

theorem Carried.trans {first second third : Machine} (earlier : first.Carried record second)
    (later : second.Carried record third) : first.Carried record third :=
  ⟨later.env.trans earlier.env, earlier.store.trans later.store, later.traced⟩

theorem Carried.covers {before after : Machine} (carried : before.Carried record after)
    {uses : List PlacedUse} (covers : Covers record before.store before.env uses) :
    Covers record after.store after.env uses := by
  rw [carried.env]
  exact covers.mono (.refl record) carried.store

end Machine

/-! ## Tasks that are traced -/

/-- The uses of names in a task that belong to the method around it. -/
def Task.uses : Task → List PlacedUse
  | .expression found => Use.allAt 0 found.uses
  | .expressions found => Use.allAt 0 (Expr.usesAll found)
  | .statement found => found.ownUses 0
  | .statements found => Stmt.ownUsesAll 0 found
  | .rounds condition body => Use.allAt 0 condition.uses ++ body.ownUses 0
  | .call _ _ _ => []
  | .apply _ _ => []
  | .applyClosure _ _ => []

/-- In one environment, the uses in a part of a task are among those of the
whole. -/
theorem Begins.uses_subset {moment next : Moment} (begins : Begins moment next)
    (sameScope : moment.task.opensScope = false) : next.task.uses ⊆ moment.task.uses := by
  cases begins with
  | block | body => cases sameScope
  | @condition _ _ _ _ elseBranch | @thenBranch _ _ _ _ _ elseBranch =>
      cases elseBranch <;> simp [Task.uses, Stmt.ownUses]
  | _ =>
      simp [Task.uses, Expr.uses, Expr.usesAll, Expr.usesOption, Stmt.ownUses, Stmt.ownUsesAll,
        Use.allAt]

/-- The values that a task was handed are traced. -/
def Task.Traced (record : Chronicle) (store : Store) : Task → Prop
  | .call _ called values => called.Traced record store ∧ Value.AllTraced record store values
  | .apply callable values => callable.Traced record store ∧ Value.AllTraced record store values
  | .applyClosure closure values =>
    closure.Traced record store ∧ Value.AllTraced record store values
  | _ => True

namespace Moment

/-- A moment that is on record and fits, with a store that is traced. Its task
is covered, and the values it was handed are traced. -/
structure Traced (record : Chronicle) (moment : Moment) : Prop where
  seen : record.seen moment
  fits : moment.Fits record.placed
  store : moment.machine.store.Traced record
  covers : Covers record moment.machine.store moment.machine.env moment.task.uses
  values : moment.task.Traced record moment.machine.store

end Moment

/-! ## The discipline -/

/-- Moments are traced, and so is what a task leaves. -/
def tracing (record : Chronicle) : Discipline where
  holds := Moment.Traced record
  keeps := Machine.Carried record
  good := Value.Traced record
  explains _ _ := True

variable {record : Chronicle}

theorem tracing_handed_iff {store : Store} {task : Task} :
    (tracing record).handed store task ↔ task.Traced record store := by
  cases task with
  | apply callable values => cases callable <;> exact Iff.rfl
  | _ => exact Iff.rfl

/-- Binding a name in a frame. -/
theorem Machine.carried_bindIn {machine : Machine} (traced : machine.store.Traced record)
    (frame : Env) {name : Token} (named : name.IsName) {value : Value}
    (tracedValue : value.Traced record machine.store) :
    machine.Carried record { machine with
      store := machine.store.bindIn frame name.lexeme value } :=
  ⟨rfl, Store.extends_bindIn _ frame named value, traced.bindIn frame named tracedValue⟩

namespace Eval

/-- The environment of the methods of a class. Before it is made, the name of
the class is bound, which makes no frame. -/
theorem tracing_methodEnv {declared : Declaration} {defined : Machine}
    (ran : define declared.name.lexeme .nil declared.ready = .ok () defined)
    (carried : declared.ready.Carried record defined)
    (above : ∀ parent, declared.parent = some parent →
      parent.Made record declared.ready.store) :
    (tracing record).Ended defined (fun _ => True) (fun store env => env = declared.env ∧
      store.classCount = declared.ready.store.classCount ∧
      ∀ parent, declared.parent = some parent →
        store.findIn? declared.env "super" = some (.cls parent))
      (methodEnv declared.parent defined) := by
  cases ran
  cases same : declared.parent with
  | none =>
      refine ⟨.refl carried.traced, ?_, rfl, nofun⟩
      rw [Declaration.env, same]
  | some parent =>
      have tracedParent : Value.AllTraced record (declared.ready.store.define declared.ready.env
          declared.name.lexeme .nil) [.cls parent] := by
        intro value member
        rw [List.mem_singleton.mp member]
        exact (above parent same).mono (.refl record) carried.store
      have env : declared.env = declared.ready.store.frames.size := by
        rw [Declaration.env, same]
      refine ⟨⟨rfl, Store.extends_childWith _ _ _ _,
        carried.traced.childWith _ _ tracedParent⟩, ?_, rfl, ?_⟩
      · rw [env]
        exact Store.size_bindIn _ _ _ _
      · intro other alike
        cases alike
        rw [env, ← Store.size_bindIn declared.ready.store declared.ready.env declared.name.lexeme
          .nil]
        exact Store.findIn?_bindIn_self (Store.lt_of_enclosing? (Store.enclosing?_child _ _)) _ _

/-- The class that a class statement makes is traced back to it. -/
theorem tracing_declareClass {declared : Declaration}
    (happened : declared.Happened record.seen)
    (words : ∀ method ∈ declared.methods, method.WordsPlaced record.placed declared.superclass)
    (named : declared.name.IsName) (traced : declared.ready.store.Traced record)
    (above : ∀ parent, declared.parent = some parent →
      parent.Made record declared.ready.store) :
    (tracing record).Ended declared.ready (fun _ => True) Discipline.done
      (declareClass declared.name declared.parent declared.methods declared.ready) := by
  have defines : (tracing record).Ended declared.ready (fun _ => True) Discipline.done
      (define declared.name.lexeme .nil declared.ready) :=
    ⟨Machine.carried_bindIn traced _ named trivial, trivial⟩
  refine .andThen Machine.Carried.trans defines fun _ defined ran carried _ => ?_
  refine .andThen Machine.Carried.trans (tracing_methodEnv ran carried above)
    fun closed around _ carriedAround holds => ?_
  obtain ⟨rfl, count, super⟩ := holds
  have made : Class.Made record around.store declared.cls :=
    .intro ⟨happened, words, super⟩ fun parent same =>
      (above parent same).mono (.refl record) (carried.trans carriedAround).store
  have makes : (tracing record).Ended around (fun _ => True)
      (fun store cls => Class.Made record store cls)
      (newClass declared.name.lexeme declared.parent declared.own around) := by
    have same : (around.store.newClass declared.name.lexeme declared.parent declared.own).1 =
        declared.cls := by
      unfold Declaration.cls Store.newClass
      rw [count]
    rw [← same] at made
    exact ⟨⟨rfl, .of_frames rfl, carriedAround.traced.newClass declared.name.lexeme
      declared.parent declared.own⟩, made.mono (.refl record) (.of_frames rfl)⟩
  refine .andThen Machine.Carried.trans makes fun cls after _ carriedAfter madeClass => ?_
  unfold reassign
  split
  · exact ⟨Machine.carried_bindIn carriedAfter.traced _ named madeClass, trivial⟩
  · exact ⟨.refl carriedAfter.traced, fun _ _ => trivial⟩

end Eval

theorem tracing_laws : (tracing record).Laws where
  handed traced := tracing_handed_iff.mpr traced.values
  here traced := .refl traced.store
  settled carried := .refl carried.traced
  trans := .trans
  later carried traced := traced.later carried.store
  plain := Value.IsPlain.traced
  owner traced := traced
  within carried := ⟨rfl, carried.store, carried.traced⟩
  nested carried := ⟨carried.env, carried.store, carried.traced⟩
  outside carried _ _ := ⟨rfl, .refl _, carried.traced⟩
  bound carried := carried.traced.bound _ _ _
  fields carried := carried.traced.fields _ _ _
  setField object name _ carried traced :=
    ⟨rfl, .of_frames rfl, carried.traced.setField object name traced⟩
  childWith env names _ carried traced :=
    ⟨rfl, Store.extends_childWith _ env names _, carried.traced.childWith env names traced⟩
  newInstance {_ cls} carried made :=
    have extended := Store.extends_newInstance _ cls
    ⟨⟨rfl, extended, carried.traced.newInstance cls⟩, Class.Made.mono made (.refl record) extended⟩
  bindMethod {_ _ _ name method object} traced carried made found receiver binding := by
    obtain ⟨declared, stands, own⟩ := Class.Made.findMethod? made found
    have happened := binding.mono fun _ same => same ▸ traced.seen
    exact ⟨⟨rfl, Store.extends_bindMethod _ method object,
      carried.traced.bindMethod method receiver⟩,
      Store.traced_bindMethod stands ⟨name, own⟩ happened⟩
  bindIn frame _ _ traced bound carried value :=
    Machine.carried_bindIn carried.traced frame (traced.fits.task.isName bound) value
  function {_ machine declaration} traced := by
    obtain ⟨_, _, _, _, wellFormed, _⟩ := traced.fits
    -- the function is declared where the uses in its body are covered
    have closure : Closure.Traced record machine.store ⟨declaration, machine.env, false⟩ :=
      .inl ⟨rfl, traced.covers⟩
    exact Machine.carried_bindIn traced.store _ (isName_of_declared wellFormed rfl) closure
  declareClass traced happened carried above := by
    have recorded := happened.mono fun _ same => same ▸ traced.seen
    cases happened.begun
    obtain ⟨_, _, _, _, ⟨named, _, wellFormed⟩, _, _, _, inside⟩ := traced.fits
    exact Eval.tracing_declareClass recorded (FunctionDecl.wordsPlaced wellFormed inside) named
      carried.traced above
  part traced begins stays carried handed :=
    ⟨record.begun traced.seen begins, fitting_laws.begins traced.fits begins, carried.traced,
      (carried.covers traced.covers).of_subset (begins.uses_subset stays),
      tracing_handed_iff.mp handed⟩
  apply traced found arity room :=
    ⟨record.begun traced.seen (.apply found arity room),
      fitting_laws.begins traced.fits (.apply found arity room), traced.store, nofun,
      traced.values.1.callable found, traced.values.2⟩
  body traced := ⟨record.begun traced.seen .body, fitting_laws.begins traced.fits .body,
    traced.store.childWith _ _ traced.values.2, traced.values.1.body traced.seen, trivial⟩
  block traced := by
    have covers := traced.covers
    rw [Task.uses, Stmt.ownUses, Stmt.ownUsesAll_succ] at covers
    exact ⟨record.begun traced.seen .block, fitting_laws.begins traced.fits .block,
      traced.store.child _, covers.inside (Store.extends_child _ _) (Store.enclosing?_child _ _),
      trivial⟩
  begun _ _ := trivial
  raises _ _ _ := trivial

/-- **A task that is traced leaves its store traced**, whatever its fuel. -/
theorem Moment.Traced.ends {moment : Moment} (traced : moment.Traced record) :
    (tracing record).EndsWell moment :=
  tracing_laws.endsWell traced

/-- **Every moment of a run is traced** if the first one is. -/
theorem Moment.Traced.visits {moment last : Moment} (traced : moment.Traced record)
    (visited : Visits moment last) : last.Traced record :=
  Discipline.Laws.visits tracing_laws traced visited

end LoxLang
