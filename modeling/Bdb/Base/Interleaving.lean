import Bdb.Base.Runs
import Mathlib.Algebra.BigOperators.Group.List.Basic
import Mathlib.Algebra.GroupWithZero.Nat

/-! # Clients of one shared store

A client's program asks a shared store one request at a time, and every request is
performed at once. Clients start and advance in any order; one that is never advanced
again has crashed between two requests. The log lists every performed request with its
answer.
-/
namespace Bdb

open List

/-- A program that asks for one request at a time and ends with a result. -/
inductive Script (Req : Type) (Ans : Req → Type) (α : Type) where
  | done (a : α)
  | ask (q : Req) (k : Ans q → Script Req Ans α)

variable {Req : Type} {Ans : Req → Type} {α β σ : Type}

namespace Script

def request (q : Req) : Script Req Ans (Ans q) := .ask q .done

def bind (f : α → Script Req Ans β) : Script Req Ans α → Script Req Ans β
  | .done a => f a
  | .ask q k => .ask q (fun a => (k a).bind f)

instance : Monad (Script Req Ans) where
  pure := .done
  bind p f := p.bind f

/-- The same program over a store that offers more requests. -/
def lift {Req' : Type} {Ans' : Req' → Type} (f : Req → Req') (back : ∀ q, Ans' (f q) → Ans q) :
    Script Req Ans α → Script Req' Ans' α
  | .done a => .done a
  | .ask q k => .ask (f q) (fun a => (k (back q a)).lift f back)

theorem bind_assoc {γ : Type} (p : Script Req Ans α) (f : α → Script Req Ans β) (g : β → Script Req Ans γ) :
    (p.bind f).bind g = p.bind (fun a => (f a).bind g) := by
  induction p with
  | done a => rfl
  | ask q k ih => exact congrArg (Script.ask q) (funext ih)

variable (perform : (q : Req) → σ → σ × Ans q)

/-- The store after requests of any clients. -/
def performAll (s : σ) (qs : List Req) : σ := qs.foldl (fun s q => (perform q s).1) s

variable {perform} in
theorem performAll_keeps {I : σ → Prop} (hstep : ∀ s q, I s → I (perform q s).1) {s : σ} (h : I s)
    (qs : List Req) : I (performAll perform s qs) := by
  induction qs generalizing s with
  | nil => exact h
  | cons q rest ih => exact ih (hstep s q h)

/-- A program whose requests are answered while others use the store: before each of its
requests the others perform some of theirs. -/
def amid : Script Req Ans α → List (List Req) → σ → σ × α
  | .done a, _, s => (s,a)
  | .ask q k, others, s =>
    let p := perform q (performAll perform s (others.headD []))
    amid (k p.2) others.tail p.1

/-- A program that has the store to itself. -/
def alone (p : Script Req Ans α) (s : σ) : σ × α := p.amid perform [] s

@[simp] theorem amid_done (a : α) (others : List (List Req)) (s : σ) :
    amid perform (.done a : Script Req Ans α) others s = (s,a) := rfl

@[simp] theorem amid_pure (a : α) (others : List (List Req)) (s : σ) :
    amid perform (pure a : Script Req Ans α) others s = (s,a) := rfl

theorem amid_ask (q : Req) (k : Ans q → Script Req Ans α) (others : List (List Req)) (s : σ) :
    amid perform (.ask q k) others s =
      amid perform (k (perform q (performAll perform s (others.headD []))).2) others.tail
        (perform q (performAll perform s (others.headD []))).1 := rfl

/-- The requests of a program amid others, each with the store it finds. -/
def meets : Script Req Ans α → List (List Req) → σ → List (σ × Req)
  | .done _, _, _ => []
  | .ask q k, others, s =>
    let found := performAll perform s (others.headD [])
    (found,q) :: meets (k (perform q found).2) others.tail (perform q found).1

/-- Every request the program may make has the property. -/
inductive AsksOnly (P : Req → Prop) : Script Req Ans α → Prop
  | done (a : α) : AsksOnly P (.done a)
  | ask {q : Req} {k : Ans q → Script Req Ans α} (hq : P q) (h : ∀ a, AsksOnly P (k a)) : AsksOnly P (.ask q k)

variable {p : Script Req Ans α} {others : List (List Req)} {step : σ × Req}

theorem AsksOnly.bind {P : Req → Prop} {f : α → Script Req Ans β} (h : p.AsksOnly P)
    (hf : ∀ a, (f a).AsksOnly P) : (p.bind f).AsksOnly P := by
  induction h with
  | done a => exact hf a
  | ask hq hk ih => exact .ask hq ih

theorem AsksOnly.mono {P P' : Req → Prop} (h : p.AsksOnly P) (himp : ∀ q, P q → P' q) :
    p.AsksOnly P' := by
  induction h with
  | done a => exact .done a
  | ask hq hk ih => exact .ask (himp _ hq) ih

variable {Req' : Type}

theorem AsksOnly.lift {Ans' : Req' → Type} {f : Req → Req'} {back : ∀ q, Ans' (f q) → Ans q}
    {P : Req → Prop} {P' : Req' → Prop} (h : p.AsksOnly P) (himp : ∀ q, P q → P' (f q)) :
    (p.lift f back).AsksOnly P' := by
  induction h with
  | done a => exact .done a
  | ask hq hk ih => exact .ask (himp _ hq) fun a => ih _

theorem lift_bind {Ans' : Req' → Type} (f : Req → Req') (back : ∀ q, Ans' (f q) → Ans q)
    (p : Script Req Ans α) (g : α → Script Req Ans β) :
    (p.bind g).lift f back = (p.lift f back).bind fun a => (g a).lift f back := by
  induction p with
  | done a => rfl
  | ask q k ih => exact congrArg (Script.ask (f q)) (funext fun a => ih _)

variable {perform} in
theorem AsksOnly.of_mem_meets {P : Req → Prop} (h : p.AsksOnly P)
    {s : σ} (hstep : step ∈ p.meets perform others s) : P step.2 := by
  induction h generalizing others s with
  | done a => cases hstep
  | ask hq hk ih =>
    rcases mem_cons.mp hstep with rfl | hrest
    · exact hq
    · exact ih _ hrest

variable {perform} in
theorem meets_keeps {I : σ → Prop} (hkeeps : ∀ s q, I s → I (perform q s).1)
    {s : σ} (h : I s) (hstep : step ∈ p.meets perform others s) :
    I step.1 := by
  induction p generalizing others s with
  | done a => cases hstep
  | ask q k ih =>
    have hfound := performAll_keeps hkeeps h (others.headD [])
    rcases mem_cons.mp hstep with rfl | hrest
    · exact hfound
    · exact ih _ (hkeeps _ q hfound) hrest

end Script

/-- A performed request with its answer. -/
abbrev Entry (Ans : Req → Type) := (q : Req) × Ans q

/-- The store, what was performed on it, and what each client still has to do. -/
structure Shared (σ : Type) {Req : Type} (Ans : Req → Type) (α : Type) where
  store : σ
  log : List (Entry Ans)
  clients : List (Script Req Ans α)

/-- A client begins a call, or performs its next request. -/
inductive Move (C : Type) where
  | start (call : C)
  | advance (client : ℕ)

namespace Shared

variable {C : Type} (perform : (q : Req) → σ → σ × Ans q) (program : C → Script Req Ans α)

def begin (s : σ) : Shared σ Ans α := ⟨s,[],[]⟩

def next (s : Shared σ Ans α) : Move C → Shared σ Ans α
  | .start call => { s with clients := s.clients ++ [program call] }
  | .advance client =>
    match s.clients[client]? with
    | some (.ask q k) =>
      let p := perform q s.store
      ⟨p.1,s.log ++ [⟨q,p.2⟩],s.clients.set client (k p.2)⟩
    | _ => s

/-- The request a move performs. -/
def asked (s : Shared σ Ans α) : Move C → Option Req
  | .start _ => none
  | .advance client =>
    match s.clients[client]? with
    | some (.ask q _) => some q
    | _ => none

/-- A condition on the store, its log and the next request, as a condition on moves. -/
def Admits (Q : σ → List (Entry Ans) → Req → Prop) (s : Shared σ Ans α) (m : Move C) : Prop :=
  ∀ q ∈ s.asked m, Q s.store s.log q

instance Admits.decidable (Q : σ → List (Entry Ans) → Req → Prop) [∀ s log q, Decidable (Q s log q)]
    (s : Shared σ Ans α) (m : Move C) : Decidable (Admits Q s m) :=
  inferInstanceAs (Decidable (∀ q ∈ s.asked m, Q s.store s.log q))

def run (s : Shared σ Ans α) (moves : List (Move C)) : Shared σ Ans α :=
  moves.foldl (next perform program) s

variable {perform program} {Q : σ → List (Entry Ans) → Req → Prop} {I : σ → List (Entry Ans) → Prop}
  {s : Shared σ Ans α} {moves : List (Move C)}

theorem next_cases (perform : (q : Req) → σ → σ × Ans q) (program : C → Script Req Ans α)
    (s : Shared σ Ans α) (m : Move C) :
    ((next perform program s m).store = s.store ∧ (next perform program s m).log = s.log) ∨
      ∃ q, s.asked m = some q ∧ (next perform program s m).store = (perform q s.store).1 ∧
        (next perform program s m).log = s.log ++ [⟨q,(perform q s.store).2⟩] := by
  cases m with
  | start call => exact .inl ⟨rfl,rfl⟩
  | advance client =>
    simp only [next,asked]
    split
    · rename_i q k hq
      exact .inr ⟨q,rfl,rfl,rfl⟩
    · exact .inl ⟨rfl,rfl⟩

theorem log_next {q : Req} {m : Move C} (h : s.asked m = some q) :
    (next perform program s m).log = s.log ++ [⟨q,(perform q s.store).2⟩] := by
  cases m with
  | start call => cases h
  | advance client =>
    simp only [asked] at h
    simp only [next]
    split at h
    · rename_i q' k hclient
      cases h
      rfl
    · cases h

theorem invariant_of_requests
    (hstep : ∀ t log q, I t log → Q t log q → I (perform q t).1 (log ++ [⟨q,(perform q t).2⟩]))
    (h : Along (next perform program) (Admits Q) s moves) (hs : I s.store s.log) :
    I (run perform program s moves).store (run perform program s moves).log := by
  refine Along.invariant (I := fun u : Shared σ Ans α => I u.store u.log) ?_ h hs
  intro u m hu hm
  rcases next_cases perform program u m with ⟨hstore,hlog⟩ | ⟨q,hq,hstore,hlog⟩
  · rw [hstore,hlog]
    exact hu
  · rw [hstore,hlog]
    exact hstep u.store u.log q hu (hm q hq)

theorem along_true : Along (next perform program) (Admits (fun _ _ _ => True)) s moves := by
  induction moves generalizing s with
  | nil => exact trivial
  | cons m rest ih => exact ⟨fun _ _ => trivial,ih⟩

theorem invariant_of_run (hstep : ∀ t log q, I t log → I (perform q t).1 (log ++ [⟨q,(perform q t).2⟩]))
    (hs : I s.store s.log) : I (run perform program s moves).store (run perform program s moves).log :=
  invariant_of_requests (fun t log q hi _ => hstep t log q hi) along_true hs

end Shared

/-! ## Calls made alone

A call whose client is started and advanced to its end, with no other client in between.
-/

namespace Script

/-- A program that has the store to itself takes the store and the log from the first to
the second, and each of its requests meets the condition. -/
inductive Completes (perform : (q : Req) → σ → σ × Ans q) (Q : σ → List (Entry Ans) → Req → Prop) :
    Script Req Ans α → σ → List (Entry Ans) → σ → List (Entry Ans) → Prop
  | done (a : α) (s : σ) (log : List (Entry Ans)) : Completes perform Q (.done a) s log s log
  | ask {q : Req} {k : Ans q → Script Req Ans α} {s s' : σ} {log log' : List (Entry Ans)} (hq : Q s log q)
      (h : Completes perform Q (k (perform q s).2) (perform q s).1 (log ++ [⟨q,(perform q s).2⟩]) s' log') :
      Completes perform Q (.ask q k) s log s' log'

end Script

namespace Shared

variable {C : Type} (perform : (q : Req) → σ → σ × Ans q) (program : C → Script Req Ans α)
  (Q : σ → List (Entry Ans) → Req → Prop)

/-- The second state is reached from the first by moves that all meet the condition. -/
def Reaches (s t : Shared σ Ans α) : Prop :=
  ∃ moves, Along (next perform program) (Admits Q) s moves ∧ run perform program s moves = t

variable {perform program Q} {s t u : Shared σ Ans α}

theorem Reaches.trans (h₁ : Reaches perform program Q s t) (h₂ : Reaches perform program Q t u) :
    Reaches perform program Q s u := by
  obtain ⟨moves₁,ha₁,rfl⟩ := h₁
  obtain ⟨moves₂,ha₂,rfl⟩ := h₂
  refine ⟨moves₁ ++ moves₂,along_append.mpr ⟨ha₁,ha₂⟩,?_⟩
  unfold run
  rw [foldl_append]

theorem Reaches.of_move (m : Move C) (h : Admits Q s m) : Reaches perform program Q s (next perform program s m) :=
  ⟨[m],⟨h,trivial⟩,rfl⟩

variable {store : σ} {log : List (Entry Ans)}

theorem reaches_of_client {client : ℕ} {p : Script Req Ans α}
    (hp : s.clients[client]? = some p) (h : p.Completes perform Q s.store s.log store log) :
    ∃ t, Reaches perform program Q s t ∧ t.store = store ∧ t.log = log := by
  induction p generalizing s with
  | done a =>
    cases h
    exact ⟨s,⟨[],trivial,rfl⟩,rfl,rfl⟩
  | ask q k ih =>
    cases h with
    | ask hq hrest =>
      have hmove : Reaches perform program Q s (next perform program s (.advance client)) := by
        refine .of_move _ ?_
        intro q' hq'
        simp only [asked,hp,Option.mem_def,Option.some.injEq] at hq'
        exact hq' ▸ hq
      obtain ⟨hlt,-⟩ := List.getElem?_eq_some_iff.mp hp
      have hnext : next perform program s (.advance client) =
          ⟨(perform q s.store).1,s.log ++ [⟨q,(perform q s.store).2⟩],
            s.clients.set client (k (perform q s.store).2)⟩ := by
        simp only [next,hp]
      rw [hnext] at hmove
      have hclient : (s.clients.set client (k (perform q s.store).2))[client]? = some (k (perform q s.store).2) := by
        simp [hlt]
      obtain ⟨t,hreach,ht⟩ := ih (perform q s.store).2
        (s := ⟨(perform q s.store).1,s.log ++ [⟨q,(perform q s.store).2⟩],
          s.clients.set client (k (perform q s.store).2)⟩) hclient hrest
      exact ⟨t,hmove.trans hreach,ht⟩

theorem reaches_of_call (call : C) (h : (program call).Completes perform Q s.store s.log store log) :
    ∃ t, Reaches perform program Q s t ∧ t.store = store ∧ t.log = log := by
  have hstart : Reaches perform program Q s (next perform program s (.start call)) := .of_move _ nofun
  have hclient : (next perform program s (.start call)).clients[s.clients.length]? = some (program call) := by
    simp [next]
  obtain ⟨t,hreach,ht⟩ := reaches_of_client hclient h
  exact ⟨t,hstart.trans hreach,ht⟩

end Shared

/-! ## Informed programs

A request may rest on what its own client was told before. The log then has what the
request rests on before the request itself.
-/

theorem split_concat {ι : Type} {log before after : List ι} {x e : ι} (h : log ++ [x] = before ++ e :: after) :
    (before = log ∧ e = x ∧ after = []) ∨ ∃ rest, after = rest ++ [x] ∧ log = before ++ e :: rest := by
  rcases eq_nil_or_concat after with rfl | ⟨rest,y,rfl⟩
  · obtain ⟨hlog,hx⟩ := append_inj' h rfl
    exact .inl ⟨hlog.symm,(singleton_inj.mp hx).symm,rfl⟩
  · rw [concat_eq_append] at h ⊢
    rw [← cons_append,← append_assoc] at h
    obtain ⟨hlog,hx⟩ := append_inj' h rfl
    exact .inr ⟨rest,by rw [singleton_inj.mp hx],hlog⟩

namespace Script

/-- Every request is justified by the client's own earlier requests and their answers. -/
def Informed (P : List (Entry Ans) → Req → Prop) : List (Entry Ans) → Script Req Ans α → Prop
  | _, .done _ => True
  | known, .ask q k => P known q ∧ ∀ a, Informed P (known ++ [⟨q,a⟩]) (k a)

variable {known : List (Entry Ans)}

variable {P : List (Entry Ans) → Req → Prop} {p : Script Req Ans α}

theorem Informed.map (h : Informed P known p) (g : α → β) : Informed P known (p.bind fun a => .done (g a)) := by
  induction p generalizing known with
  | done a => trivial
  | ask q k ih => exact ⟨h.1,fun a => ih a (h.2 a)⟩

theorem AsksOnly.informed {Q : Req → Prop} (h : p.AsksOnly Q) : Informed (fun _ q => Q q) known p := by
  induction h generalizing known with
  | done a => trivial
  | ask hq hk ih => exact ⟨hq,fun a => ih a⟩

theorem Informed.bind_of_asks {Q : Req → Prop} {f : α → Script Req Ans β} (hp : p.AsksOnly Q)
    (hask : ∀ more q, (∀ e ∈ more, Q e.1) → Q q → P (known ++ more) q)
    (hf : ∀ more a, (∀ e ∈ more, Q e.1) → Informed P (known ++ more) (f a)) : Informed P known (p.bind f) := by
  induction hp generalizing known with
  | done a =>
    have hdone := hf [] a (fun _ h => absurd h not_mem_nil)
    rwa [append_nil] at hdone
  | @ask q k hq hk ih =>
    refine ⟨by simpa using hask [] q (fun _ h => absurd h not_mem_nil) hq,?_⟩
    intro a
    have hmore : ∀ more : List (Entry Ans), (∀ e ∈ more, Q e.1) → ∀ e ∈ (⟨q,a⟩ : Entry Ans) :: more, Q e.1 := by
      intro more hmore e he
      rcases mem_cons.mp he with rfl | he
      · exact hq
      · exact hmore e he
    refine ih a ?_ ?_
    · intro more q' hall hq'
      rw [append_assoc]
      exact hask _ q' (hmore more hall) hq'
    · intro more a' hall
      rw [append_assoc]
      exact hf _ a' (hmore more hall)

end Script

namespace Shared

variable {C : Type} {perform : (q : Req) → σ → σ × Ans q} {program : C → Script Req Ans α}
  {P : List (Entry Ans) → Req → Prop}

/-- What a request rests on is in the log before it, in the same order. -/
def JustifiedLog (P : List (Entry Ans) → Req → Prop) (log : List (Entry Ans)) : Prop :=
  ∀ before e after, log = before ++ e :: after → ∃ known, known.Sublist before ∧ P known e.1

variable {log : List (Entry Ans)} {e : Entry Ans}

theorem JustifiedLog.left (h : JustifiedLog P (log ++ [e])) : JustifiedLog P log := by
  intro before e' after hlog
  exact h before e' (after ++ [e]) (by rw [hlog,append_assoc,cons_append])

theorem JustifiedLog.last (h : JustifiedLog P (log ++ [e])) : ∃ known, known.Sublist log ∧ P known e.1 :=
  h log e [] rfl

theorem log_informed (hprogram : ∀ c, Script.Informed P [] (program c)) (t : σ) (moves : List (Move C)) :
    JustifiedLog P (run perform program (begin t : Shared σ Ans α) moves).log := by
  have hstep : ∀ (u : Shared σ Ans α) (m : Move C),
      ((∀ p ∈ u.clients, ∃ known, known.Sublist u.log ∧ Script.Informed P known p) ∧ JustifiedLog P u.log) →
      (∀ p ∈ (next perform program u m).clients, ∃ known, known.Sublist (next perform program u m).log ∧
        Script.Informed P known p) ∧ JustifiedLog P (next perform program u m).log := by
    rintro u m ⟨hclients,hlog⟩
    cases m with
    | start call =>
      refine ⟨?_,hlog⟩
      intro p hp
      rcases mem_append.mp hp with hp | hp
      · exact hclients p hp
      · exact ⟨[],nil_sublist _,mem_singleton.mp hp ▸ hprogram call⟩
    | advance client =>
      simp only [next]
      split
      · rename_i q k hclient
        obtain ⟨known,hknown,hq,hk⟩ := hclients _ (mem_of_getElem? hclient)
        refine ⟨?_,?_⟩
        · intro p hp
          rcases mem_or_eq_of_mem_set hp with hp | rfl
          · obtain ⟨other,hother,hp⟩ := hclients p hp
            exact ⟨other,hother.trans (sublist_append_left _ _),hp⟩
          · exact ⟨_,hknown.append (List.Sublist.refl _),hk _⟩
        · intro before e after hsplit
          rcases split_concat hsplit with ⟨rfl,rfl,rfl⟩ | ⟨rest,rfl,hrest⟩
          · exact ⟨known,hknown,hq⟩
          · exact hlog before e rest hrest
      · exact ⟨hclients,hlog⟩
  have hrun : ∀ (u : Shared σ Ans α),
      ((∀ p ∈ u.clients, ∃ known, known.Sublist u.log ∧ Script.Informed P known p) ∧ JustifiedLog P u.log) →
      JustifiedLog P (run perform program u moves).log := by
    induction moves with
    | nil => exact fun u hu => hu.2
    | cons m rest ih => exact fun u hu => ih (next perform program u m) (hstep u m hu)
  refine hrun _ ⟨fun _ h => absurd h not_mem_nil,?_⟩
  intro before e after h
  exact absurd h.symm (append_ne_nil_of_right_ne_nil _ (cons_ne_nil _ _))

theorem log_asks {P : Req → Prop} (hprogram : ∀ c, (program c).AsksOnly P) (t : σ) (moves : List (Move C)) :
    ∀ e ∈ (run perform program (begin t : Shared σ Ans α) moves).log, P e.1 := by
  intro e he
  obtain ⟨before,after,hlog⟩ := append_of_mem he
  obtain ⟨known,-,hP⟩ := log_informed (fun c => (hprogram c).informed) t moves before e after hlog
  exact hP

variable {I : σ → List (Entry Ans) → Prop} {moves : List (Move C)} {Q R : σ → List (Entry Ans) → Req → Prop} {t : σ}
  (hprogram : ∀ c, Script.Informed P [] (program c))
  (hstep : ∀ s log q known, I s log → Q s log q → known.Sublist log → P known q →
    I (perform q s).1 (log ++ [⟨q,(perform q s).2⟩]))

include hprogram hstep

theorem invariant_of_informed
    (h : Along (next perform program) (Admits Q) (begin t : Shared σ Ans α) moves) (hstart : I t []) :
    I (run perform program (begin t : Shared σ Ans α) moves).store
      (run perform program (begin t : Shared σ Ans α) moves).log := by
  refine invariant_of_requests (I := fun s log => JustifiedLog P log → I s log) ?_ h (fun _ => hstart)
    (log_informed hprogram t moves)
  intro s log q hi hq hlog
  obtain ⟨known,hknown,hP⟩ := hlog.last
  exact hstep s log q known (hi hlog.left) hq hknown hP

theorem along_of_informed
    (hR : ∀ s log q known, I s log → Q s log q → known.Sublist log → P known q → R s log q)
    (h : Along (next perform program) (Admits Q) (begin t : Shared σ Ans α) moves) (hstart : I t []) :
    Along (next perform program) (Admits R) (begin t : Shared σ Ans α) moves := by
  induction moves using List.reverseRecOn with
  | nil => trivial
  | append_singleton moves m ih =>
    obtain ⟨hmoves,hm,-⟩ := along_append.mp h
    refine along_append.mpr ⟨ih hmoves,?_,trivial⟩
    have hi := invariant_of_informed hprogram hstep hmoves hstart
    intro q hq
    have hlog : JustifiedLog P (run perform program (begin t : Shared σ Ans α) (moves ++ [m])).log :=
      log_informed hprogram t _
    have hnext : run perform program (begin t : Shared σ Ans α) (moves ++ [m]) =
        next perform program (run perform program (begin t) moves) m := foldl_concat ..
    rw [hnext,log_next (s := run perform program (begin t) moves) hq] at hlog
    obtain ⟨known,hknown,hP⟩ := hlog.last
    exact hR _ _ q known hi (hm q hq) hknown hP

end Shared

/-! ## Answers

What a client is answered is decided by its last request.
-/

namespace Script

/-- Every result of the program is allowed by the request it ends with. -/
inductive Closes (R : Entry Ans → α → Prop) : Script Req Ans α → Prop
  | done (a : α) : Closes R (.done a)
  | ask {q : Req} {k : Ans q → Script Req Ans α} (hlast : ∀ b a, k b = .done a → R ⟨q,b⟩ a)
      (h : ∀ b, Closes R (k b)) : Closes R (.ask q k)

theorem Closes.bind {R : Entry Ans → β → Prop} {p : Script Req Ans α} {f : α → Script Req Ans β}
    (hdone : ∀ a b e, f a = .done b → R e b) (hf : ∀ a, (f a).Closes R) : (p.bind f).Closes R := by
  induction p with
  | done a => exact hf a
  | ask q k ih =>
    refine .ask ?_ ih
    intro answer b hb
    cases hk : k answer with
    | done a =>
      rw [hk] at hb
      exact hdone a b _ hb
    | ask q' k' =>
      rw [hk] at hb
      cases hb

theorem Closes.map {R : Entry Ans → α → Prop} {R' : Entry Ans → β → Prop} {p : Script Req Ans α} {g : α → β}
    (h : p.Closes R) (himp : ∀ e a, R e a → R' e (g a)) : (p.bind fun a => .done (g a)).Closes R' := by
  induction h with
  | done a => exact .done _
  | @ask q k hlast hk ih =>
    refine .ask ?_ ih
    intro answer b hb
    cases hka : k answer with
    | done a =>
      rw [hka] at hb
      cases hb
      exact himp _ a (hlast answer a hka)
    | ask q' k' =>
      rw [hka] at hb
      cases hb

end Script

namespace Script

/-- After an answer of the kind, the program makes only requests of the kind. -/
inductive Heeds (E : Entry Ans → Prop) (Q : Req → Prop) : Script Req Ans α → Prop
  | done (a : α) : Heeds E Q (.done a)
  | ask {q : Req} {k : Ans q → Script Req Ans α} (hheed : ∀ b, E ⟨q,b⟩ → (k b).AsksOnly Q)
      (h : ∀ b, Heeds E Q (k b)) : Heeds E Q (.ask q k)

theorem Heeds.map {E : Entry Ans → Prop} {Q : Req → Prop} {p : Script Req Ans α} (h : p.Heeds E Q) (g : α → β) :
    (p.bind fun a => .done (g a)).Heeds E Q := by
  induction h with
  | done a => exact .done _
  | ask hheed hk ih => exact .ask (fun b hb => (hheed b hb).bind fun a => .done _) ih

end Script

namespace Shared

variable {C : Type} (perform : (q : Req) → σ → σ × Ans q) (program : C → Script Req Ans α)

def answers (s : Shared σ Ans α) : Move C → Option α
  | .start call =>
    match program call with
    | .done a => some a
    | .ask _ _ => none
  | .advance client =>
    match s.clients[client]? with
    | some (.ask q k) =>
      match k (perform q s.store).2 with
      | .done a => some a
      | .ask _ _ => none
    | _ => none

variable {perform program}

theorem clients_run {S : Script Req Ans α → Prop} (hprogram : ∀ c, S (program c))
    (hrest : ∀ q k, S (.ask q k) → ∀ b, S (k b)) (t : σ) (moves : List (Move C)) :
    ∀ p ∈ (run perform program (begin t : Shared σ Ans α) moves).clients, S p := by
  have hstep : ∀ (u : Shared σ Ans α) (m : Move C), (∀ p ∈ u.clients, S p) →
      ∀ p ∈ (next perform program u m).clients, S p := by
    intro u m h p hp
    cases m with
    | start call =>
      rcases mem_append.mp hp with hp | hp
      · exact h p hp
      · exact mem_singleton.mp hp ▸ hprogram call
    | advance client =>
      simp only [next] at hp
      split at hp
      · rename_i q k hclient
        rcases mem_or_eq_of_mem_set hp with hp | rfl
        · exact h p hp
        · exact hrest q k (h _ (mem_of_getElem? hclient)) _
      · exact h p hp
  have hrun : ∀ u : Shared σ Ans α, (∀ p ∈ u.clients, S p) →
      ∀ p ∈ (run perform program u moves).clients, S p := by
    induction moves with
    | nil => exact fun _ h => h
    | cons m rest ih => exact fun u hu => ih (next perform program u m) (hstep u m hu)
  exact hrun _ fun _ h => absurd h not_mem_nil

theorem client_asks {Q : Req → Prop} {s : Shared σ Ans α} {client : ℕ} {p : Script Req Ans α}
    (hp : s.clients[client]? = some p) (h : p.AsksOnly Q) (moves : List (Move C)) :
    ∃ p', (run perform program s moves).clients[client]? = some p' ∧ p'.AsksOnly Q := by
  induction moves generalizing s p with
  | nil => exact ⟨p,hp,h⟩
  | cons m rest ih =>
    obtain ⟨hlt,-⟩ := List.getElem?_eq_some_iff.mp hp
    cases m with
    | start call =>
      refine ih (s := next perform program s (.start call)) (p := p) ?_ h
      simp only [next]
      rwa [List.getElem?_append_left hlt]
    | advance other =>
      cases hother : s.clients[other]? with
      | none =>
        refine ih (s := next perform program s (.advance other)) (p := p) ?_ h
        simpa only [next,hother] using hp
      | some script =>
        cases script with
        | done a =>
          refine ih (s := next perform program s (.advance other)) (p := p) ?_ h
          simpa only [next,hother] using hp
        | ask q k =>
          by_cases hsame : other = client
          · subst hsame
            obtain rfl := Option.some.inj (hp.symm.trans hother)
            cases h with
            | ask hq hk =>
              refine ih (s := next perform program s (.advance other)) (p := k (perform q s.store).2) ?_ (hk _)
              simp only [next,hother]
              exact List.getElem?_set_self hlt
          · refine ih (s := next perform program s (.advance other)) (p := p) ?_ h
            simp only [next,hother]
            rwa [List.getElem?_set_ne hsame]

end Shared

/-! ## Accounting

Some answered requests earn a credit and some requests spend one. Programs that never
spend more than they have earned keep the log balanced, whatever the order of their
requests.
-/

namespace Script

/-- With the given credits, the program never spends more than it has. -/
def Covered (earns spends : Entry Ans → Bool) : ℕ → Script Req Ans α → Prop
  | _, .done _ => True
  | n, .ask q k => ∀ a : Ans q,
    ∃ left, left + (if spends ⟨q,a⟩ then 1 else 0) = n + (if earns ⟨q,a⟩ then 1 else 0) ∧
      Covered earns spends left (k a)

theorem Informed.covered {earns spends : Entry Ans → Bool} {P : List (Entry Ans) → Req → Prop}
    (hP : ∀ known q a, P known q → spends ⟨q,a⟩ = true → known.countP spends < known.countP earns)
    {p : Script Req Ans α} {known : List (Entry Ans)} (h : Informed P known p) {n : ℕ}
    (hn : n + known.countP spends = known.countP earns) : Covered earns spends n p := by
  induction p generalizing known n with
  | done a => trivial
  | ask q k ih =>
    intro a
    have hspends := hP known q a h.1
    refine ⟨n + (if earns ⟨q,a⟩ then 1 else 0) - (if spends ⟨q,a⟩ then 1 else 0),?_,ih a (h.2 a) ?_⟩
    · by_cases hs : spends ⟨q,a⟩ = true
      · have hlt := hspends hs
        simp only [hs,if_true]
        omega
      · simp [hs]
    · simp only [countP_append,countP_singleton]
      by_cases hs : spends ⟨q,a⟩ = true
      · have hlt := hspends hs
        simp only [hs,if_true]
        omega
      · simp only [hs,Bool.false_eq_true,if_false]
        omega

end Script

namespace Shared

variable {C : Type} {perform : (q : Req) → σ → σ × Ans q} {program : C → Script Req Ans α}
  {earns spends : Entry Ans → Bool}

def Balanced (earns spends : Entry Ans → Bool) (s : Shared σ Ans α) : Prop :=
  ∃ credits : List ℕ, List.Forall₂ (Script.Covered earns spends) credits s.clients ∧
    s.log.countP spends + credits.sum ≤ s.log.countP earns

theorem balanced_next (hprogram : ∀ c, Script.Covered earns spends 0 (program c)) {s : Shared σ Ans α}
    (h : Balanced earns spends s) (m : Move C) : Balanced earns spends (next perform program s m) := by
  obtain ⟨credits,hcovered,hsum⟩ := h
  cases m with
  | start call =>
    refine ⟨credits ++ [0],rel_append hcovered (.cons (hprogram call) .nil),?_⟩
    simpa [next] using hsum
  | advance client =>
    simp only [next]
    split
    · rename_i q k hclient
      obtain ⟨hlt,hget⟩ := List.getElem?_eq_some_iff.mp hclient
      have hlt' : client < credits.length := hcovered.length_eq ▸ hlt
      have hask := (forall₂_iff_get.mp hcovered).2 client hlt' hlt
      simp only [get_eq_getElem,hget] at hask
      obtain ⟨left,hleft,hrest⟩ := hask (perform q s.store).2
      refine ⟨credits.set client left,?_,?_⟩
      · refine forall₂_iff_get.mpr ⟨by simp [hcovered.length_eq],?_⟩
        intro i hi hi'
        simp only [get_eq_getElem,getElem_set]
        by_cases hic : client = i
        · simpa [hic] using hrest
        · have hi₁ : i < credits.length := by simpa using hi
          have hi₂ : i < s.clients.length := by simpa using hi'
          simpa [hic] using (forall₂_iff_get.mp hcovered).2 i hi₁ hi₂
      · have hset : (credits.set client left).sum + credits[client] = credits.sum + left := by
          have hsplit := sum_set credits client left
          simp only [hlt',if_true] at hsplit
          have horig := sum_set credits client credits[client]
          simp only [hlt',if_true,set_getElem_self] at horig
          omega
        simp only [countP_append,countP_singleton]
        omega
    · exact ⟨credits,hcovered,hsum⟩

theorem spent_le_earned (hprogram : ∀ c, Script.Covered earns spends 0 (program c)) (s : σ)
    (moves : List (Move C)) :
    (run perform program (begin s) moves).log.countP spends ≤
      (run perform program (begin s) moves).log.countP earns := by
  have hall : ∀ (u : Shared σ Ans α), Balanced earns spends u →
      Balanced earns spends (run perform program u moves) := by
    induction moves with
    | nil => exact fun _ h => h
    | cons m rest ih => exact fun u hu => ih (next perform program u m) (balanced_next hprogram hu m)
  obtain ⟨credits,-,hsum⟩ := hall (begin s) ⟨[],.nil,by simp [begin]⟩
  omega

end Shared

end Bdb
