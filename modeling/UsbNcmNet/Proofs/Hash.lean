/-
The accelerator is given back after every hash.

The block has one session at a time.  Over any number of hashes, whatever the driver
answers, a session is begun only with none open, used and freed only while it is, and
none is open when a hash returns, also where the computation failed.  Open means begun
with success and not yet given back: that `hash_free_session` is called is what the caller
owes, and the source does not look at what it answers.
-/
import UsbNcmNet.Edhoc.Hash

namespace UsbNcmNet

open Calls Trace

/--
Whether a session is open behind a call, from whether one was before it.  It is over once
`hash_free_session` has been called, whatever that answers.
-/
def afterCall (isOpen : Bool) : HashCall × Int → Bool
  | (.hashBeginSession, r) => isOpen || r == 0
  | (.hashFreeSession, _) => false
  | _ => isOpen

/-- A session is open: one was begun, and `hash_free_session` has not been called since. -/
def sessionOpen (h : List (HashCall × Int)) : Bool := h.foldl afterCall false

theorem sessionOpen_append (h h' : List (HashCall × Int)) :
    sessionOpen (h ++ h') = h'.foldl afterCall (sessionOpen h) := List.foldl_append

/-- What the session allows. -/
def Permitted (h : List (HashCall × Int)) : HashCall → Prop
  | .deviceIsReady => True
  | .hashBeginSession => sessionOpen h = false
  | .hashCompute _ | .hashFreeSession => sessionOpen h = true

/-- What a hash that succeeds says about its arguments and its past. -/
structure Hashed (args : HashArgs) (h : List (HashCall × Int))
    (result : HashResult × Option Nat) : Prop where
  length : result = (.success, some 32)
  room : 32 ≤ args.hashSize
  computed : ∃ input, args.input = some input ∧ input ≠ [] ∧ (.hashCompute input, 0) ∈ h

/-- A hash has succeeded, or has failed and left nothing. -/
def Concluded (args : HashArgs) (h : List (HashCall × Int)) (result : HashResult × Option Nat) :
    Prop :=
  Hashed args h result ∨ (result.1 ≠ .success ∧ result.2 = none)

/-- Later calls do not change that. -/
theorem Concluded.later {args : HashArgs} {h h' : List (HashCall × Int)}
    {result : HashResult × Option Nat} (hc : Concluded args h result) (hh : h <+: h') :
    Concluded args h' result := by
  rcases hc with hhashed | hfailed
  · obtain ⟨input, hinput, hne, hmem⟩ := hhashed.computed
    exact .inl ⟨hhashed.length, hhashed.room, input, hinput, hne, hh.subset hmem⟩
  · exact .inr hfailed

theorem edhocHashHw_runs (args : HashArgs) {h : List (HashCall × Int)}
    (hclosed : sessionOpen h = false) :
    Runs Permitted (fun h result => sessionOpen h = false ∧ Concluded args h result) h
      (edhocHashHw args) := by
  unfold edhocHashHw
  split
  · exact ⟨hclosed, .inr ⟨by simp, rfl⟩⟩
  · rename_i input hinput
    split
    · exact ⟨hclosed, .inr ⟨by simp, rfl⟩⟩
    · rename_i hvalid
      refine Runs.perform trivial fun ready => ?_
      split
      · exact ⟨by simp [sessionOpen_append, afterCall, hclosed], .inr ⟨by simp, rfl⟩⟩
      · refine Runs.required (by simp [Permitted, sessionOpen_append, afterCall, hclosed]) ?_ ?_
        · intro r hr
          exact ⟨by simp [sessionOpen_append, afterCall, hclosed, hr], .inr ⟨by simp, rfl⟩⟩
        · -- the session is open here, and freed on either outcome
          refine Runs.perform (by simp [Permitted, sessionOpen_append, afterCall]) fun ret => ?_
          refine Runs.perform (by simp [Permitted, sessionOpen_append, afterCall]) fun freed => ?_
          split
          · exact ⟨by simp [sessionOpen_append, afterCall], .inr ⟨by simp, rfl⟩⟩
          · rename_i hret
            have hret : ret = 0 := by simpa using hret
            simp only [not_or, Nat.not_lt] at hvalid
            refine ⟨by simp [sessionOpen_append, afterCall], .inl ⟨rfl, hvalid.2.2.1, input, hinput, ?_, ?_⟩⟩
            · rintro rfl
              exact hvalid.1 rfl
            · simp [hret]

/-- What holds when all hashes have returned. -/
theorem hashAll_runs (all : List HashArgs) :
    ∀ {h : List (HashCall × Int)}, sessionOpen h = false →
      Runs Permitted (fun h results => sessionOpen h = false ∧
        List.Forall₂ (fun args result => Concluded args h result) all results) h (hashAll all) := by
  induction all with
  | nil =>
      intro h hclosed
      exact ⟨hclosed, .nil⟩
  | cons args all ih =>
      intro h hclosed
      refine (edhocHashHw_runs args hclosed).bind fun h₁ result hreturned => ?_
      refine ((ih hreturned.1).grows List.prefix_rfl).bind fun h₂ results hresults => ?_
      exact ⟨hresults.2.1, .cons (hreturned.2.later hresults.1) hresults.2.2⟩

/--
**The accelerator is given back after every hash.**  In every run of hashes, at any
point of it and whatever the calls have answered, each call was made with the session in
the state it asks for.  When the run is over no session is open, and a hash that
succeeded has left 32, with room for as many bytes, after its own input, which is not
empty, was computed; any other has left nothing.
-/
theorem hash_sessions_balanced (all : List HashArgs) (answers : List Int) :
    let t := answers.foldl Thread.step ⟨hashAll all, []⟩
    AtEach (fun h e => Permitted h e.1) t.history ∧
      ∀ results, t.rest = .ret results → sessionOpen t.history = false ∧
        List.Forall₂ (fun args result => Concluded args t.history result) all results := by
  intro t
  have hok : t.Ok Permitted (fun h results => sessionOpen h = false ∧
      List.Forall₂ (fun args result => Concluded args h result) all results) :=
    Thread.Ok.run ⟨atEach_nil _, hashAll_runs all rfl⟩ answers
  exact ⟨hok.made, fun results hret => hok.returned hret⟩

end UsbNcmNet
