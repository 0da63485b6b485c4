import LoxLang.Proofs.Run.Soundness
import Mathlib.Order.Bounds.Basic

/-!
# The nearest frame that binds a name

A name is looked up along the chain of frames or in the frame at a distance.
In every store that scopes are built in, the two agree: what is found and
assigned along the chain is what is found and assigned at the least distance at
which the name is bound (`chain_agrees_with_distance`).

The frames of such a store form a tree with the global frame as its root. Links
never change, and each leads to an older frame (`Store.Linked`), so a walk
along the chain visits exactly the frames that can be reached at a distance.
-/

namespace LoxLang

set_option autoImplicit false

/-! ## Stores that scopes are built in -/

/-- A request that may change the scopes of a store. -/
inductive ScopeChange where
  | child (env : Env)
  | define (env : Env) (name : String) (value : Value)
  | assign (env : Env) (name : String) (value : Value)
  | assignAt (env : Env) (distance : Nat) (name : String) (value : Value)

/-- The scope that a request is made of. -/
def ScopeChange.env : ScopeChange → Env
  | child env => env
  | define env _ _ => env
  | assign env _ _ => env
  | assignAt env _ _ _ => env

namespace Store

/-- The store behind a request. One that fails leaves it as it was. -/
def after (store : Store) : ScopeChange → Store
  | .child env => (store.child env).2
  | .define env name value => store.define env name value
  | .assign env name value => (store.assign env name value).toOption.getD store
  | .assignAt env distance name value =>
    (store.assignAt env distance name value).toOption.getD store

/-- The stores that are reached from a global scope alone by requests to scopes
that are there. -/
inductive Built : Store → Prop where
  | start : Built .initial
  | change {store : Store} (built : store.Built) (change : ScopeChange)
      (inside : change.env < store.frames.size) : Built (store.after change)

/-- The links make a tree: each leads to an older frame, and the global frame
alone has none. -/
structure Linked (store : Store) : Prop where
  older : ∀ env outer, store.enclosing? env = some outer → outer < env
  root : ∀ env < store.frames.size, store.enclosing? env = none ↔ env = Env.global

theorem linked_initial : Store.initial.Linked where
  older env _ link := by cases env <;> cases link
  root env inside := by
    obtain rfl : env = 0 := Nat.lt_one_iff.mp inside
    exact ⟨fun _ => rfl, fun _ => rfl⟩

namespace Linked

variable {store : Store}

/-- Binding a name does not touch the links. -/
theorem bindIn (linked : store.Linked) (frame : Env) (name : String) (value : Value) :
    (store.bindIn frame name value).Linked where
  older env outer link := linked.older env outer (by rwa [enclosing?_bindIn] at link)
  root env inside := by
    rw [enclosing?_bindIn]
    exact linked.root env (by rwa [size_bindIn] at inside)

/-- A new frame is younger than the one around it. -/
theorem child (linked : store.Linked) {env : Env} (inside : env < store.frames.size) :
    (store.child env).2.Linked := by
  have links : ∀ other, (store.child env).2.enclosing? other =
      if other = store.frames.size then some env else store.enclosing? other := by
    intro other
    by_cases new : other = store.frames.size
    · simp [Store.child, enclosing?, new]
    · simp [Store.child, enclosing?, Array.getElem?_push, new]
  constructor
  · intro other outer link
    rw [links] at link
    split at link
    next new =>
      cases link
      exact new ▸ inside
    next => exact linked.older other outer link
  · intro other within
    rw [links]
    split
    next new =>
      subst new
      have young : store.frames.size ≠ Env.global := Nat.ne_of_gt (Nat.zero_lt_of_lt inside)
      exact ⟨fun linkless => (by cases linkless), fun global => absurd global young⟩
    next old =>
      simp only [Store.child, Array.size_push] at within
      exact linked.root other (Nat.lt_of_le_of_ne (Nat.le_of_lt_succ within) old)

/-- What one request keeps. -/
theorem after (linked : store.Linked) {change : ScopeChange}
    (inside : change.env < store.frames.size) : (store.after change).Linked := by
  cases change with
  | child env => exact linked.child inside
  | define env name value => exact linked.bindIn env name value
  | assign env name value =>
      simp only [Store.after, Store.assign]
      cases store.holder env name with
      | ok frame => exact linked.bindIn frame name value
      | error cause => exact linked
  | assignAt env distance name value =>
      simp only [Store.after, Store.assignAt]
      cases store.frameAt env distance name with
      | ok frame => exact linked.bindIn frame name value
      | error cause => exact linked

end Linked

/-- **The links make a tree**, whatever was requested. -/
theorem Built.linked {store : Store} (built : store.Built) : store.Linked := by
  induction built with
  | start => exact linked_initial
  | change _ change inside ih => exact ih.after inside

/-! ## Distances -/

theorem ancestor?_succ_of_root {store : Store} {env : Env} (root : store.enclosing? env = none)
    (distance : Nat) : store.ancestor? env (distance + 1) = none := by
  rw [ancestor?, root]

/-- The frame at a distance is there and binds a name. -/
def BindsAt (store : Store) (env : Env) (distance : Nat) (name : String) : Prop :=
  ∃ frame, store.ancestor? env distance = some frame ∧ (store.findIn? frame name).isSome

namespace Linked

variable {store : Store} {env frame : Env} {name : String}

/-- The chain of a frame goes on with the chain around it. -/
theorem chain_of_link (linked : store.Linked) {outer : Env}
    (link : store.enclosing? env = some outer) : store.chain env = env :: store.chain outer := by
  rw [chain, link]
  exact if_pos (linked.older env outer link)

/-- The frames of a chain are those at some distance. -/
theorem exists_distance (linked : store.Linked) (member : frame ∈ store.chain env) :
    ∃ distance, store.ancestor? env distance = some frame := by
  induction env using Nat.strong_induction_on with
  | _ env ih =>
      cases link : store.enclosing? env with
      | none =>
          rw [chain_of_root link] at member
          exact ⟨0, congrArg some (List.mem_singleton.mp member).symm⟩
      | some outer =>
          rw [linked.chain_of_link link] at member
          rcases List.mem_cons.mp member with rfl | further
          · exact ⟨0, rfl⟩
          · obtain ⟨distance, reached⟩ := ih outer (linked.older env outer link) further
            exact ⟨distance + 1, (ancestor?_succ_of_link link distance).trans reached⟩

/-- Every scope is some way inside the global one. -/
theorem exists_depth (linked : store.Linked) (inside : env < store.frames.size) :
    ∃ depth, store.ancestor? env depth = some Env.global := by
  induction env using Nat.strong_induction_on with
  | _ env ih =>
      cases link : store.enclosing? env with
      | none => exact ⟨0, congrArg some ((linked.root env inside).mp link)⟩
      | some outer =>
          have older := linked.older env outer link
          obtain ⟨depth, reached⟩ := ih outer older (Nat.lt_trans older inside)
          exact ⟨depth + 1, (ancestor?_succ_of_link link depth).trans reached⟩

/-- There is nothing past the global scope. -/
theorem ancestor?_of_depth_lt (linked : store.Linked) (inside : env < store.frames.size)
    {depth distance : Nat} (reached : store.ancestor? env depth = some Env.global)
    (past : depth < distance) : store.ancestor? env distance = none := by
  induction depth generalizing env distance with
  | zero =>
      obtain rfl : env = Env.global := Option.some.inj reached
      obtain ⟨further, rfl⟩ := Nat.exists_eq_succ_of_ne_zero (Nat.ne_of_gt past)
      exact ancestor?_succ_of_root ((linked.root _ inside).mpr rfl) further
  | succ depth ih =>
      obtain ⟨further, rfl⟩ := Nat.exists_eq_succ_of_ne_zero (Nat.ne_of_gt (Nat.zero_lt_of_lt past))
      cases link : store.enclosing? env with
      | none => exact ancestor?_succ_of_root link further
      | some outer =>
          rw [ancestor?_succ_of_link link] at reached ⊢
          exact ih (Nat.lt_trans (linked.older env outer link) inside) reached
            (Nat.lt_of_succ_lt_succ past)

end Linked

/-! ## Lookups along the chain -/

/-- The value found along the chain is that in the nearest frame with the
name. -/
theorem get_eq_of_holder {store : Store} {env frame : Env} {name : String} {value : Value}
    (held : store.holder env name = .ok frame) (found : store.findIn? frame name = some value) :
    store.get env name = .ok value := by
  have first : ∀ frames : List Env,
      (frames.find? fun frame => (store.findIn? frame name).isSome) = some frame →
        (frames.findSome? fun frame => store.findIn? frame name) = some value := by
    intro frames
    induction frames with
    | nil => exact fun none => by cases none
    | cons here rest ih =>
        intro search
        cases bound : store.findIn? here name with
        | none =>
            rw [List.find?_cons_of_neg (by simp [bound])] at search
            rw [List.findSome?_cons, bound]
            exact ih search
        | some other =>
            rw [List.find?_cons_of_pos (by simp [bound])] at search
            cases search
            rw [List.findSome?_cons, bound]
            exact bound.symm.trans found
  unfold holder at held
  split at held
  next nearest search =>
    cases held
    rw [get, first _ search]
  next => cases held

namespace Linked

variable {store : Store} {env frame : Env} {name : String}

/-- **The holder of a name** is the frame at the least distance that binds
it. -/
theorem holder_eq (linked : store.Linked) {distance : Nat}
    (reached : store.ancestor? env distance = some frame)
    (bound : (store.findIn? frame name).isSome)
    (nearer : ∀ other < distance, ¬ store.BindsAt env other name) :
    store.holder env name = .ok frame := by
  -- along with the distance, the walk gets one step shorter
  induction distance generalizing env with
  | zero =>
      obtain rfl : env = frame := Option.some.inj reached
      exact Eval.holder_of_bound bound
  | succ distance ih =>
      cases link : store.enclosing? env with
      | none =>
          rw [ancestor?_succ_of_root link] at reached
          cases reached
      | some outer =>
          rw [ancestor?_succ_of_link link] at reached
          have absent : (store.findIn? env name).isSome = false :=
            Bool.eq_false_iff.mpr fun here => nearer 0 (Nat.zero_lt_succ _) ⟨env, rfl, here⟩
          have further := ih reached fun other less binds => by
            refine nearer (other + 1) (Nat.succ_lt_succ less) ?_
            obtain ⟨found, there, binding⟩ := binds
            exact ⟨found, (ancestor?_succ_of_link link other).trans there, binding⟩
          simpa only [holder, linked.chain_of_link link, List.find?_cons, absent] using further

/-- Without a frame that binds it, a name has no holder. -/
theorem holder_of_unbound (linked : store.Linked)
    (unbound : ∀ distance, ¬ store.BindsAt env distance name) :
    store.holder env name = .error (.undefinedVariable name) ∧
      store.get env name = .error (.undefinedVariable name) := by
  have missing : ∀ frame ∈ store.chain env, store.findIn? frame name = none := by
    intro frame member
    obtain ⟨distance, reached⟩ := linked.exists_distance member
    exact Option.not_isSome_iff_eq_none.mp fun bound => unbound distance ⟨frame, reached, bound⟩
  constructor
  · have search : ((store.chain env).find? fun frame => (store.findIn? frame name).isSome) = none :=
      List.find?_eq_none.mpr fun frame member => by simp [missing frame member]
    rw [holder, search]
  · rw [get, List.findSome?_eq_none_iff.mpr missing]

end Linked

/-! ## Changes of one binding -/

/-- A store in which one binding of one frame has another value, and nothing
else is different. -/
structure Rebound (before : Store) (frame : Env) (name : String) (value : Value) (after : Store) :
    Prop where
  here : after.findIn? frame name = some value
  others : ∀ other word, other ≠ frame ∨ word ≠ name →
    after.findIn? other word = before.findIn? other word
  size : after.frames.size = before.frames.size
  links : ∀ env, after.enclosing? env = before.enclosing? env
  fields : after.fields = before.fields
  classCount : after.classCount = before.classCount

theorem rebound_bindIn {store : Store} {frame : Env} (inside : frame < store.frames.size)
    (name : String) (value : Value) :
    store.Rebound frame name value (store.bindIn frame name value) where
  here := findIn?_bindIn_self inside name value
  others _ _ distinct := findIn?_bindIn_of_ne distinct store value
  size := size_bindIn store frame name value
  links := enclosing?_bindIn store frame name value
  fields := rfl
  classCount := rfl

end Store

/-- What a request made at a token gives. A fault is at the line of the
token. -/
def Token.located {Answer : Type} (token : Token) : Except RuntimeCause Answer →
    Except RuntimeError Answer :=
  Except.mapError fun cause => ⟨cause, token.line⟩

/-- **The chain and the distance lead to the same binding.** Take any scopes that
were built from a global one, any of them, and any name. If the name is bound in
the scope or around it, take the least distance at which it is. There, and along
the chain, the same value is read, and assignments leave the same store, in which
that one binding has the new value and all else is as before. If the name is not
bound, reading and assigning it fail at the line of the token, and assigning
changes nothing. Past the global scope nothing is read or assigned. -/
theorem chain_agrees_with_distance {store : Store} (built : store.Built) (env : Env)
    (inside : env < store.frames.size) (name : Token) (value : Value) :
    (∀ distance, IsLeast {distance | store.BindsAt env distance name.lexeme} distance →
      ∃ (frame : Env) (found : Value) (after : Store),
        store.ancestor? env distance = some frame ∧
        store.findIn? frame name.lexeme = some found ∧
        store.get env name.lexeme = .ok found ∧
        store.getAt env distance name.lexeme = .ok found ∧
        store.assign env name.lexeme value = .ok after ∧
        store.assignAt env distance name.lexeme value = .ok after ∧
        store.Rebound frame name.lexeme value after) ∧
    ((∀ distance, ¬ store.BindsAt env distance name.lexeme) →
      name.located (store.get env name.lexeme) =
        .error ⟨.undefinedVariable name.lexeme, name.line⟩ ∧
      name.located (store.assign env name.lexeme value) =
        .error ⟨.undefinedVariable name.lexeme, name.line⟩ ∧
      RuntimeCause.message (.undefinedVariable name.lexeme) =
        "Undefined variable '" ++ name.lexeme ++ "'." ∧
      store.after (.assign env name.lexeme value) = store) ∧
    ∃ depth, store.ancestor? env depth = some Env.global ∧
      ∀ distance > depth,
        name.located (store.getAt env distance name.lexeme) =
          .error ⟨.missingScope distance name.lexeme, name.line⟩ ∧
        name.located (store.assignAt env distance name.lexeme value) =
          .error ⟨.missingScope distance name.lexeme, name.line⟩ ∧
        store.after (.assignAt env distance name.lexeme value) = store ∧
        store.implicitAt? env distance name.lexeme = none := by
  have linked := built.linked
  refine ⟨fun distance least => ?_, fun unbound => ?_, ?_⟩
  · obtain ⟨frame, reached, bound⟩ := least.1
    obtain ⟨found, here⟩ := Option.isSome_iff_exists.mp bound
    have holder := linked.holder_eq reached bound fun other less binds =>
      absurd (least.2 binds) (Nat.not_le.mpr less)
    have frameAt : store.frameAt env distance name.lexeme = .ok frame := by
      rw [Store.frameAt, reached]
    refine ⟨frame, found, store.bindIn frame name.lexeme value, reached, here,
      Store.get_eq_of_holder holder here, ?_, ?_, ?_,
      Store.rebound_bindIn (Store.lt_of_findIn? here) _ _⟩
    · rw [Store.getAt, frameAt]
      simp only [here]
    · rw [Store.assign, holder]
    · rw [Store.assignAt, frameAt]
  · obtain ⟨holder, get⟩ := linked.holder_of_unbound unbound
    have assign : store.assign env name.lexeme value = .error (.undefinedVariable name.lexeme) := by
      rw [Store.assign, holder]
    exact ⟨by rw [get]; rfl, by rw [assign]; rfl, rfl, by rw [Store.after, assign]; rfl⟩
  · obtain ⟨depth, reached⟩ := linked.exists_depth inside
    refine ⟨depth, reached, fun distance past => ?_⟩
    have nowhere := linked.ancestor?_of_depth_lt inside reached past
    have frameAt : store.frameAt env distance name.lexeme =
        .error (.missingScope distance name.lexeme) := by
      rw [Store.frameAt, nowhere]
    have assignAt : store.assignAt env distance name.lexeme value =
        .error (.missingScope distance name.lexeme) := by
      rw [Store.assignAt, frameAt]
    exact ⟨by rw [Store.getAt, frameAt]; rfl, by rw [assignAt]; rfl,
      by rw [Store.after, assignAt]; rfl, by rw [Store.implicitAt?, nowhere]⟩

/-- Two scopes inside one that has a variable. A scope inside the first of them
is asked for it, and the other one has a variable of that name too. -/
def siblingScopes : Store :=
  ((((Store.initial.after (.define 0 "x" .nil)).after (.child 0)).after (.child 0)).after
    (.define 2 "x" (.bool true))).after (.child 1)

/-- The innermost scope assigns to the variable that both have around them. The
one in its sibling is left alone. -/
theorem sibling_keeps_its_variable :
    siblingScopes.Built ∧ IsLeast {distance | siblingScopes.BindsAt 3 distance "x"} 2 ∧
      ∃ after, siblingScopes.assign 3 "x" (.bool false) = .ok after ∧
        siblingScopes.assignAt 3 2 "x" (.bool false) = .ok after ∧
        after.findIn? 0 "x" = some (.bool false) ∧ after.findIn? 2 "x" = some (.bool true) := by
  have built : siblingScopes.Built :=
    ((((Store.Built.start.change (.define 0 "x" .nil) (by decide)).change (.child 0)
      (by decide)).change (.child 0) (by decide)).change (.define 2 "x" (.bool true))
        (by decide)).change (.child 1) (by decide)
  have least : IsLeast {distance | siblingScopes.BindsAt 3 distance "x"} 2 := by
    refine ⟨⟨0, rfl, rfl⟩, ?_⟩
    rintro (_ | _ | distance) ⟨frame, reached, bound⟩
    · cases reached
      cases bound
    · cases reached
      cases bound
    · exact Nat.le_add_left 2 distance
  obtain ⟨frame, found, after, reached, _, _, _, assigned, assignedAt, rebound⟩ :=
    (chain_agrees_with_distance built 3 (by decide) ⟨.identifier, "x", 1⟩ (.bool false)).1 2 least
  cases reached
  refine ⟨built, least, after, assigned, assignedAt, rebound.here, ?_⟩
  exact (rebound.others 2 "x" (.inl (by decide))).trans rfl

end LoxLang
