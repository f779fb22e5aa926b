/-
Programs that call out.

A program makes calls, one after another.  What a call answers is up to the outside,
and what the program does next may depend on it.  `Runs pre post` is the triple for
such programs: started after the calls of a history, a program makes each call only
where `pre` allows it, whatever was answered before, and returns only what `post` says.

A `Thread` is a program under way, with the calls it has made.  Other threads may run
between two of its calls.  `Thread.Ok` is what the triple says about a thread at such a
moment, and every answer keeps it.
-/
import UsbNcmNet.Lib.Trace

/-- A program with calls `C`, each answered by a number, that returns an `α`. -/
inductive Calls (C α : Type)
  | ret (a : α)
  | call (c : C) (next : Int → Calls C α)

namespace Calls

open Trace

variable {C α β : Type}

def bind (p : Calls C α) (k : α → Calls C β) : Calls C β :=
  match p with
  | .ret a => k a
  | .call c next => .call c fun r => (next r).bind k

instance : Monad (Calls C) where
  pure := .ret
  bind := .bind

theorem id_map_eq (p : Calls C α) : id <$> p = p := by
  induction p with
  | ret a => rfl
  | call c next ih => exact congrArg (Calls.call c) (funext ih)

theorem bind_bind {γ : Type} (p : Calls C α) (k : α → Calls C β) (l : β → Calls C γ) :
    p >>= k >>= l = p >>= fun a => k a >>= l := by
  induction p with
  | ret a => rfl
  | call c next ih => exact congrArg (Calls.call c) (funext ih)

instance : LawfulMonad (Calls C) := LawfulMonad.mk' _ id_map_eq (fun _ _ => rfl) bind_bind

theorem ite_then (b : Prop) [Decidable b] (p q : Calls C α) (k : α → Calls C β) :
    (if b then p else q) >>= k = if b then p >>= k else q >>= k := by
  split <;> rfl

/-- Make a call and return its answer. -/
def perform (c : C) : Calls C Int := .call c .ret

/-- The result when each call answers always the same. -/
def result (answers : C → Int) : Calls C α → α
  | .ret a => a
  | .call c next => (next (answers c)).result answers

@[simp] theorem result_pure (answers : C → Int) (a : α) :
    (Pure.pure a : Calls C α).result answers = a := rfl

@[simp] theorem result_perform_bind (answers : C → Int) (c : C) (k : Int → Calls C α) :
    (perform c >>= k).result answers = (k (answers c)).result answers := rfl

@[simp] theorem result_ite (answers : C → Int) (b : Prop) [Decidable b] (p q : Calls C α) :
    (if b then p else q).result answers = if b then p.result answers else q.result answers := by
  split <;> rfl

theorem result_bind (answers : C → Int) (p : Calls C α) (k : α → Calls C β) :
    (p >>= k).result answers = (k (p.result answers)).result answers := by
  induction p with
  | ret a => rfl
  | call c next ih => exact ih (answers c)

/-! ### Triples -/

/-- Whatever is answered, calls are made where `pre` allows them, and `post` holds at the end. -/
def Runs (pre : List (C × Int) → C → Prop) (post : List (C × Int) → α → Prop) :
    List (C × Int) → Calls C α → Prop
  | h, .ret a => post h a
  | h, .call c next => pre h c ∧ ∀ r, Runs pre post (h ++ [(c, r)]) (next r)

section

variable {pre : List (C × Int) → C → Prop} {post : List (C × Int) → α → Prop}
  {h : List (C × Int)} {c : C}

/-- The rule of sequence: what the first program leaves is what the second starts from. -/
theorem Runs.bind {post : List (C × Int) → β → Prop} {mid : List (C × Int) → α → Prop}
    {p : Calls C α} {k : α → Calls C β} (hp : Runs pre mid h p)
    (hk : ∀ h a, mid h a → Runs pre post h (k a)) : Runs pre post h (p >>= k) := by
  induction p generalizing h with
  | ret a => exact hk h a hp
  | call c next ih => exact ⟨hp.1, fun r => ih r (hp.2 r)⟩

/-- A call whose answer the program goes on with. -/
theorem Runs.perform {k : Int → Calls C α} (hpre : pre h c)
    (hk : ∀ r, Runs pre post (h ++ [(c, r)]) (k r)) : Runs pre post h (Calls.perform c >>= k) :=
  ⟨hpre, hk⟩

/-- A call that has to succeed: any answer but 0 ends the program. -/
theorem Runs.required {failed : Int → Calls C α} {rest : Calls C α} (hpre : pre h c)
    (hfailed : ∀ r, r ≠ 0 → Runs pre post (h ++ [(c, r)]) (failed r))
    (hrest : Runs pre post (h ++ [(c, 0)]) rest) :
    Runs pre post h (Calls.perform c >>= fun r => if r ≠ 0 then failed r else rest) := by
  refine ⟨hpre, ?_⟩
  intro r
  show Runs pre post _ (if r ≠ 0 then failed r else rest)
  by_cases hr : r = 0
  · rw [if_neg (by simp [hr]), hr]
    exact hrest
  · rw [if_pos hr]
    exact hfailed r hr

/-- Calls that have to succeed one after another, before the rest of the program. -/
def require (ok : C → Int → Bool) (failed rest : Calls C α) : List C → Calls C α
  | [] => rest
  | c :: cs => perform c >>= fun r => if ok c r then require ok failed rest cs else failed

@[simp] theorem require_nil {ok : C → Int → Bool} {failed rest : Calls C α} :
    require ok failed rest [] = rest := rfl

@[simp] theorem require_cons {ok : C → Int → Bool} {failed rest : Calls C α} {cs : List C} :
    require ok failed rest (c :: cs)
      = perform c >>= fun r => if ok c r then require ok failed rest cs else failed := rfl

/-- Calls up to the first that fails, and the rest of the program either way. -/
def attempt (ok : C → Int → Bool) (cs : List C) (rest : Calls C α) : Calls C α :=
  require ok rest rest cs

theorem require_bind {ok : C → Int → Bool} {failed rest : Calls C α} (cs : List C)
    (k : α → Calls C β) :
    require ok failed rest cs >>= k = require ok (failed >>= k) (rest >>= k) cs := by
  induction cs with
  | nil => rfl
  | cons c cs ih =>
      rw [require_cons, require_cons, ← ih, bind_assoc]
      exact congrArg _ (funext fun r => ite_then _ _ _ k)

theorem require_append {ok : C → Int → Bool} {failed rest : Calls C α} (cs ds : List C) :
    require ok failed rest (cs ++ ds) = require ok failed (require ok failed rest ds) cs := by
  induction cs with
  | nil => rfl
  | cons c cs ih => rw [List.cons_append, require_cons, require_cons, ih]

theorem result_require (ok : C → Int → Bool) (failed rest : Calls C α) (cs : List C)
    (answers : C → Int) : (require ok failed rest cs).result answers =
      if cs.all fun c => ok c (answers c) then rest.result answers else failed.result answers := by
  induction cs with
  | nil => rfl
  | cons c cs ih =>
      rw [require_cons, result_perform_bind, result_ite, ih, List.all_cons]
      cases ok c (answers c) <;> simp

/-- What the given calls leave behind when all of them succeed. -/
structure Passed (ok : C → Int → Bool) (cs : List C) (new : List (C × Int)) : Prop where
  calls : new.map Prod.fst = cs
  succeeded : ∀ e ∈ new, ok e.1 e.2 = true

theorem Passed.nil (ok : C → Int → Bool) : Passed ok [] [] := ⟨rfl, by simp⟩

theorem Passed.cons {ok : C → Int → Bool} {cs : List C} {new : List (C × Int)} {r : Int}
    (hr : ok c r = true) (hnew : Passed ok cs new) : Passed ok (c :: cs) ((c, r) :: new) := by
  refine ⟨by rw [List.map_cons, hnew.calls], ?_⟩
  intro e he
  rcases List.mem_cons.mp he with rfl | he
  · exact hr
  · exact hnew.succeeded e he

theorem Runs.require {ok : C → Int → Bool} {failed rest : Calls C α} :
    ∀ {cs : List C} {h : List (C × Int)},
      (∀ past c todo new, cs = past ++ c :: todo → Passed ok past new → pre (h ++ new) c) →
      (∀ past c todo new r, cs = past ++ c :: todo → Passed ok past new → ok c r = false →
        Runs pre post (h ++ new ++ [(c, r)]) failed) →
      (∀ new, Passed ok cs new → Runs pre post (h ++ new) rest) →
      Runs pre post h (require ok failed rest cs) := by
  intro cs
  induction cs with
  | nil =>
      intro h _ _ hrest
      simpa using hrest [] (.nil ok)
  | cons c cs ih =>
      intro h hpre hfailed hrest
      refine Runs.perform (by simpa using hpre [] c cs [] rfl (.nil ok)) fun r => ?_
      cases hr : ok c r with
      | false => simpa [hr] using hfailed [] c cs [] r rfl (.nil ok) hr
      | true =>
          rw [if_pos rfl]
          refine ih ?_ ?_ ?_
          · intro past d todo new hcs hnew
            simpa using hpre (c :: past) d todo _ (by rw [hcs]; rfl) (hnew.cons hr)
          · intro past d todo new r' hcs hnew hr'
            simpa using hfailed (c :: past) d todo _ r' (by rw [hcs]; rfl) (hnew.cons hr) hr'
          · intro new hnew
            simpa using hrest _ (hnew.cons hr)

/-- What the given calls leave behind when one of them fails: it is the last. -/
def Failed (ok : C → Int → Bool) (cs : List C) (new : List (C × Int)) : Prop :=
  ∃ past c todo passed r, cs = past ++ c :: todo ∧ Passed ok past passed ∧ ok c r = false ∧
    new = passed ++ [(c, r)]

/-- The calls are made in order, to the last or to the first that fails. -/
def Tried (ok : C → Int → Bool) (cs : List C) (new : List (C × Int)) : Prop :=
  Passed ok cs new ∨ Failed ok cs new

theorem Passed.append {ok : C → Int → Bool} {cs ds : List C} {new new' : List (C × Int)}
    (h : Passed ok cs new) (h' : Passed ok ds new') : Passed ok (cs ++ ds) (new ++ new') := by
  refine ⟨by rw [List.map_append, h.calls, h'.calls], ?_⟩
  intro e he
  rcases List.mem_append.mp he with he | he
  · exact h.succeeded e he
  · exact h'.succeeded e he

/-- Calls that fail early fail in any longer row. -/
theorem Failed.append {ok : C → Int → Bool} {cs : List C} {new : List (C × Int)}
    (h : Failed ok cs new) (ds : List C) : Failed ok (cs ++ ds) new := by
  obtain ⟨past, c, todo, passed, r, rfl, hpassed, hr, rfl⟩ := h
  exact ⟨past, c, todo ++ ds, passed, r, by simp, hpassed, hr, rfl⟩

theorem Passed.failed {ok : C → Int → Bool} {cs ds : List C} {new new' : List (C × Int)}
    (h : Passed ok cs new) (h' : Failed ok ds new') : Failed ok (cs ++ ds) (new ++ new') := by
  obtain ⟨past, c, todo, passed, r, rfl, hpassed, hr, rfl⟩ := h'
  exact ⟨cs ++ past, c, todo, new ++ passed, r, by simp, h.append hpassed, hr, by simp⟩

theorem Tried.calls_prefix {ok : C → Int → Bool} {cs : List C} {new : List (C × Int)}
    (h : Tried ok cs new) : new.map Prod.fst <+: cs := by
  rcases h with h | ⟨past, c, todo, passed, r, rfl, hpassed, -, rfl⟩
  · exact h.calls ▸ List.prefix_rfl
  · rw [List.map_append, hpassed.calls]
    exact ⟨todo, by simp⟩

theorem Tried.mem {ok : C → Int → Bool} {cs : List C} {new : List (C × Int)} (h : Tried ok cs new)
    {e : C × Int} (he : e ∈ new) : e.1 ∈ cs :=
  h.calls_prefix.subset (List.mem_map_of_mem he)

/-- The rule for a row of calls by what the row leaves behind. -/
theorem Runs.row {ok : C → Int → Bool} {failed rest : Calls C α} {cs : List C}
    (hpre : ∀ past c todo new, cs = past ++ c :: todo → Passed ok past new → pre (h ++ new) c)
    (hfailed : ∀ new, Failed ok cs new → Runs pre post (h ++ new) failed)
    (hrest : ∀ new, Passed ok cs new → Runs pre post (h ++ new) rest) :
    Runs pre post h (Calls.require ok failed rest cs) := by
  refine Runs.require hpre ?_ hrest
  intro past c todo new r hcs hnew hr
  rw [List.append_assoc]
  exact hfailed _ ⟨past, c, todo, new, r, hcs, hnew, hr, rfl⟩

theorem Runs.attempt {ok : C → Int → Bool} {rest : Calls C α} {cs : List C}
    (hpre : ∀ past c todo new, cs = past ++ c :: todo → Passed ok past new → pre (h ++ new) c)
    (hrest : ∀ new, Tried ok cs new → Runs pre post (h ++ new) rest) :
    Runs pre post h (Calls.attempt ok cs rest) :=
  Runs.row hpre (fun new hnew => hrest new (.inr hnew)) fun new hnew => hrest new (.inl hnew)

/-- A program can always be run to its end, with answers of one's own choice. -/
theorem Runs.exists_return {p : Calls C α} (hp : Runs pre post h p) (answer : C → Int) :
    ∃ later a, post (h ++ later) a ∧ ∀ e ∈ later, e.2 = answer e.1 := by
  induction p generalizing h with
  | ret a => exact ⟨[], a, by rwa [List.append_nil], by simp⟩
  | call c next ih =>
      obtain ⟨later, a, hpost, hlater⟩ := ih (answer c) (hp.2 (answer c))
      refine ⟨(c, answer c) :: later, a, by simpa using hpost, ?_⟩
      intro e he
      rcases List.mem_cons.mp he with rfl | he
      · rfl
      · exact hlater e he

/-- What was made before is still in the history at the end. -/
theorem Runs.grows {h₀ : List (C × Int)} {p : Calls C α} (hp : Runs pre post h p)
    (hh : h₀ <+: h) : Runs pre (fun h' a => h₀ <+: h' ∧ post h' a) h p := by
  induction p generalizing h with
  | ret a => exact ⟨hh, hp⟩
  | call c next ih =>
      exact ⟨hp.1, fun r => ih r (hp.2 r) (hh.trans (List.prefix_append _ _))⟩

end

/-! ### Threads -/

/-- A program under way. -/
structure Thread (C α : Type) where
  rest : Calls C α
  history : List (C × Int)

/-- The call that is next is made and answered; a program that has returned stays as it is. -/
def Thread.step (t : Thread C α) (r : Int) : Thread C α :=
  match t.rest with
  | .ret _ => t
  | .call c next => ⟨next r, t.history ++ [(c, r)]⟩

/-- The next call, if there is one. -/
def Thread.next (t : Thread C α) : Option C :=
  match t.rest with
  | .ret _ => none
  | .call c _ => some c

/-- So far every call was made where it is allowed, and the rest will be. -/
structure Thread.Ok (pre : List (C × Int) → C → Prop) (post : List (C × Int) → α → Prop)
    (t : Thread C α) : Prop where
  made : AtEach (fun h e => pre h e.1) t.history
  rest : Runs pre post t.history t.rest

variable {pre : List (C × Int) → C → Prop} {post : List (C × Int) → α → Prop} {t : Thread C α}

theorem Thread.Ok.step (h : t.Ok pre post) (r : Int) : (t.step r).Ok pre post := by
  obtain ⟨rest, history⟩ := t
  cases rest with
  | ret a => exact h
  | call c next => exact ⟨atEach_concat.mpr ⟨h.made, h.rest.1⟩, h.rest.2 r⟩

/-- However far it gets. -/
theorem Thread.Ok.run (h : t.Ok pre post) (answers : List Int) :
    (answers.foldl Thread.step t).Ok pre post := by
  induction answers generalizing t with
  | nil => exact h
  | cons r answers ih => exact ih (h.step r)

/-- A program that has returned has kept its promise. -/
theorem Thread.Ok.returned (h : t.Ok pre post) {a : α} (hret : t.rest = .ret a) :
    post t.history a := by
  have := h.rest
  rw [hret] at this
  exact this

end Calls
