import Mathlib.Logic.Relation
import Mathlib.Logic.Function.Iterate
import Mathlib.Tactic.Common
import TpmEmulator.Library.Runs

/-!
Programs that talk to a bus. A program asks for something and goes on with the
answer, or it polls a condition until it holds. A bus answers everything. A model
of a bus may leave a request open, and it lets a program wait where a bus would
only be polled again.

Others may act on the bus between two accesses of the program. Where what they do
is input that the model queues, a program ends up where it would be had it been
given all the input at once.
-/
namespace Programs

inductive Prog (ρ κ ν α : Type)
  | ret (a : α)
  | ask (r : ρ) (k : ν → Prog ρ κ ν α)
  | wait (c : κ) (k : Prog ρ κ ν α)

variable {ρ κ ν α β σ τ ε ω : Type}

namespace Prog

def bind : Prog ρ κ ν α → (α → Prog ρ κ ν β) → Prog ρ κ ν β
  | ret a, f => f a
  | ask r k, f => ask r fun v => (k v).bind f
  | wait c k, f => wait c (k.bind f)

instance : Monad (Prog ρ κ ν) where
  pure := ret
  bind := bind

@[simp] theorem ret_bind (a : α) (f : α → Prog ρ κ ν β) : ret a >>= f = f a := rfl

@[simp] theorem ask_bind (r : ρ) (k : ν → Prog ρ κ ν α) (f : α → Prog ρ κ ν β) :
    ask r k >>= f = ask r fun v => k v >>= f := rfl

@[simp] theorem wait_bind (c : κ) (k : Prog ρ κ ν α) (f : α → Prog ρ κ ν β) :
    wait c k >>= f = wait c (k >>= f) := rfl

@[simp] theorem pure_eq (a : α) : (pure a : Prog ρ κ ν α) = ret a := rfl

theorem bind_ret (p : Prog ρ κ ν α) : p >>= ret = p := by
  induction p with
  | ret a => rfl
  | ask r k ih => simp [ih]
  | wait c k ih => simp [ih]

theorem bind_assoc {γ : Type} (p : Prog ρ κ ν α) (f : α → Prog ρ κ ν β)
    (g : β → Prog ρ κ ν γ) : p >>= f >>= g = p >>= fun a => f a >>= g := by
  induction p with
  | ret a => rfl
  | ask r k ih => simp [ih]
  | wait c k ih => simp [ih]

end Prog

/-- An answer or the outcome of a poll, each with the bus after it. -/
structure Bus (τ ρ κ ν : Type) where
  ask : τ → ρ → ν × τ
  poll : τ → κ → Bool × τ

/-- One access of a program. A program that has returned starts over with `body`. -/
def Bus.cycle (bus : Bus τ ρ κ ν) (body : α → Prog ρ κ ν α) :
    τ × Prog ρ κ ν α → τ × Prog ρ κ ν α
  | (t, .ret a) => (t, body a)
  | (t, .ask r k) => ((bus.ask t r).2, k (bus.ask t r).1)
  | (t, .wait c k) => ((bus.poll t c).2, if (bus.poll t c).1 then k else .wait c k)

/-- Polls a condition until it holds, at most `fuel` times. -/
def Bus.await (bus : Bus τ ρ κ ν) (c : κ) : Nat → τ → Option τ
  | 0, _ => none
  | fuel + 1, t =>
      if (bus.poll t c).1 then some (bus.poll t c).2 else bus.await c fuel (bus.poll t c).2

/-- A program run to its end, with `fuel` polls for each of its waits. -/
def Bus.exec (bus : Bus τ ρ κ ν) (fuel : Nat) : Prog ρ κ ν α → τ → Option (α × τ)
  | .ret a, t => some (a, t)
  | .ask r k, t => bus.exec fuel (k (bus.ask t r).1) (bus.ask t r).2
  | .wait c k, t => (bus.await c fuel t).bind (bus.exec fuel k)

theorem Bus.exec_bind (bus : Bus τ ρ κ ν) {fuel : Nat} {p : Prog ρ κ ν α} {t t' : τ} {a : α}
    (h : bus.exec fuel p t = some (a, t')) (f : α → Prog ρ κ ν β) :
    bus.exec fuel (p >>= f) t = bus.exec fuel (f a) t' := by
  induction p generalizing t with
  | ret b =>
      cases h
      rfl
  | ask r k ih => exact ih _ h
  | wait c k ih =>
      obtain ⟨ready, hawait, hrest⟩ := Option.bind_eq_some_iff.mp h
      rw [Prog.wait_bind, exec, hawait]
      exact ih hrest

theorem Bus.await_kept {bus : Bus τ ρ κ ν} {P : τ → Prop}
    (poll : ∀ t c, P t → P (bus.poll t c).2) {c : κ} {fuel : Nat} {t t' : τ}
    (h : bus.await c fuel t = some t') (ht : P t) : P t' := by
  induction fuel generalizing t with
  | zero => cases h
  | succ fuel ih =>
      rw [await] at h
      split at h
      · obtain rfl := Option.some.inj h
        exact poll t c ht
      · exact ih h (poll t c ht)

/-- What every access keeps holds at the end of a run. -/
theorem Bus.exec_kept {bus : Bus τ ρ κ ν} {P : τ → Prop} (ask : ∀ t r, P t → P (bus.ask t r).2)
    (poll : ∀ t c, P t → P (bus.poll t c).2) {fuel : Nat} {p : Prog ρ κ ν α} {t t' : τ} {a : α}
    (h : bus.exec fuel p t = some (a, t')) (ht : P t) : P t' := by
  induction p generalizing t with
  | ret b =>
      cases h
      exact ht
  | ask r k ih => exact ih _ h (ask t r ht)
  | wait c k ih =>
      obtain ⟨ready, hawait, hrest⟩ := Option.bind_eq_some_iff.mp h
      exact ih hrest (await_kept poll hawait ht)

structure Model (σ ρ κ ν : Type) where
  ask : σ → ρ → Option (ν × σ)
  ready : σ → κ → Bool

namespace Model

/-- The access the model allows, if there is one. -/
def next (m : Model σ ρ κ ν) (body : α → Prog ρ κ ν α) :
    σ × Prog ρ κ ν α → Option (σ × Prog ρ κ ν α)
  | (s, .ret a) => some (s, body a)
  | (s, .ask r k) => (m.ask s r).map fun answer => (answer.2, k answer.1)
  | (s, .wait c k) => if m.ready s c then some (s, k) else none

def Leads (m : Model σ ρ κ ν) (body : α → Prog ρ κ ν α) :
    σ × Prog ρ κ ν α → σ × Prog ρ κ ν α → Prop :=
  Relation.ReflTransGen fun c d => m.next body c = some d

/-- The program runs to its end without ever waiting in vain. -/
inductive Does (m : Model σ ρ κ ν) : σ → Prog ρ κ ν α → σ → α → Prop
  | ret (s : σ) (a : α) : Does m s (.ret a) s a
  | ask {s s₁ s₂ : σ} {r : ρ} {v : ν} {k : ν → Prog ρ κ ν α} {a : α}
      (answered : m.ask s r = some (v, s₁)) (rest : Does m s₁ (k v) s₂ a) :
      Does m s (.ask r k) s₂ a
  | wait {s s₂ : σ} {c : κ} {k : Prog ρ κ ν α} {a : α}
      (ready : m.ready s c = true) (rest : Does m s k s₂ a) : Does m s (.wait c k) s₂ a

theorem Does.bind {m : Model σ ρ κ ν} {s s₁ s₂ : σ} {p : Prog ρ κ ν α} {a : α}
    {f : α → Prog ρ κ ν β} {b : β} (first : m.Does s p s₁ a) (second : m.Does s₁ (f a) s₂ b) :
    m.Does s (p >>= f) s₂ b := by
  induction first with
  | ret s a => exact second
  | ask answered _ ih => exact .ask answered (ih second)
  | wait ready _ ih => exact .wait ready (ih second)

/-- A finished part of a program leads to what follows it. -/
theorem Does.leads {m : Model σ ρ κ ν} {s s' : σ} {p : Prog ρ κ ν α} {a : α}
    (h : m.Does s p s' a) (f : α → Prog ρ κ ν β) (body : β → Prog ρ κ ν β) :
    m.Leads body (s, p >>= f) (s', f a) := by
  induction h with
  | ret s a => exact .refl
  | ask answered _ ih => exact .head (by simp [next, answered]) ih
  | wait ready _ ih => exact .head (by simp [next, ready]) ih

/-- A relation that every answer keeps holds between the ends of an execution. -/
theorem Leads.rel {m : Model σ ρ κ ν} {body : α → Prog ρ κ ν α} {P : σ → σ → Prop}
    (refl : ∀ s, P s s) (trans : ∀ s₁ s₂ s₃, P s₁ s₂ → P s₂ s₃ → P s₁ s₃)
    (kept : ∀ s r v s', m.ask s r = some (v, s') → P s s') {c d : σ × Prog ρ κ ν α}
    (h : m.Leads body c d) : P c.1 d.1 := by
  induction h with
  | refl => exact refl _
  | @tail d e _ hstep ih =>
      refine trans _ _ _ ih ?_
      obtain ⟨s, p⟩ := d
      cases p with
      | ret a =>
          cases hstep
          exact refl s
      | ask r k =>
          simp only [next, Option.map_eq_some_iff] at hstep
          obtain ⟨⟨v, s'⟩, hask, rfl⟩ := hstep
          exact kept s r v s' hask
      | wait c k =>
          simp only [next, Option.ite_none_right_eq_some] at hstep
          obtain ⟨-, heq⟩ := hstep
          cases heq
          exact refl s

/-- Of two points of an execution one leads to the other. -/
theorem Leads.comparable {m : Model σ ρ κ ν} {body : α → Prog ρ κ ν α}
    {c d e : σ × Prog ρ κ ν α} (hd : m.Leads body c d) (he : m.Leads body c e) :
    m.Leads body d e ∨ m.Leads body e d :=
  Relation.ReflTransGen.total_of_right_unique
    (fun _ _ _ hb hc => Option.some.inj (hb.symm.trans hc)) hd he

/-- What lies on the way to the last of some stages lies before the first of them or
between two: an execution has only one way. -/
theorem Leads.between {m : Model σ ρ κ ν} {body : α → Prog ρ κ ν α} {c x : σ × Prog ρ κ ν α}
    {stage : Nat → σ × Prog ρ κ ν α} {n : Nat} (hx : m.Leads body c x)
    (hfirst : m.Leads body c (stage 0))
    (hstages : ∀ k < n, m.Leads body (stage k) (stage (k + 1))) (hlast : m.Leads body x (stage n)) :
    m.Leads body x (stage 0) ∨
      ∃ k < n, m.Leads body (stage k) x ∧ m.Leads body x (stage (k + 1)) := by
  have hstage : ∀ k ≤ n, m.Leads body c (stage k) := by
    intro k hk
    induction k with
    | zero => exact hfirst
    | succ k ih => exact (ih (Nat.le_of_succ_le hk)).trans (hstages k hk)
  induction n with
  | zero => exact .inl hlast
  | succ n ih =>
      rcases hx.comparable (hstage n (Nat.le_succ n)) with hbefore | hbehind
      · rcases ih (fun k hk => hstages k (Nat.lt_succ_of_lt hk)) hbefore
          (fun k hk => hstage k (Nat.le_succ_of_le hk)) with hzero | ⟨k, hk, hbetween⟩
        · exact .inl hzero
        · exact .inr ⟨k, Nat.lt_succ_of_lt hk, hbetween⟩
      · exact .inr ⟨n, Nat.lt_succ_self n, hbehind, hlast⟩

end Model

/-- Where the model answers, the bus gives the same answer. A poll tells what the
model is ready for and is not seen by the model. -/
structure Implements (bus : Bus τ ρ κ ν) (m : Model σ ρ κ ν) (R : τ → σ → Prop) : Prop where
  ask : ∀ {t s r v s'}, R t s → m.ask s r = some (v, s') →
    (bus.ask t r).1 = v ∧ R (bus.ask t r).2 s'
  poll : ∀ {t s} (c : κ), R t s → (bus.poll t c).1 = m.ready s c ∧ R (bus.poll t c).2 s

namespace Implements
variable {bus : Bus τ ρ κ ν} {m : Model σ ρ κ ν} {R : τ → σ → Prop}

theorem cycle (h : Implements bus m R) {body : α → Prog ρ κ ν α} {t : τ} {s s' : σ}
    {p p' : Prog ρ κ ν α} (hR : R t s) (hnext : m.next body (s, p) = some (s', p')) :
    R (bus.cycle body (t, p)).1 s' ∧ (bus.cycle body (t, p)).2 = p' := by
  cases p with
  | ret a =>
      cases hnext
      exact ⟨hR, rfl⟩
  | ask r k =>
      simp only [Model.next, Option.map_eq_some_iff] at hnext
      obtain ⟨⟨v, s₁⟩, hask, heq⟩ := hnext
      cases heq
      obtain ⟨hvalue, hafter⟩ := h.ask hR hask
      exact ⟨hafter, by simp [Bus.cycle, hvalue]⟩
  | wait c k =>
      simp only [Model.next, Option.ite_none_right_eq_some] at hnext
      obtain ⟨hready, heq⟩ := hnext
      cases heq
      obtain ⟨hpoll, hafter⟩ := h.poll c hR
      exact ⟨hafter, by simp [Bus.cycle, hpoll, hready]⟩

/-- A program that waits in the model polls and stays where it is. -/
theorem cycle_wait (h : Implements bus m R) (body : α → Prog ρ κ ν α) {t : τ} {s : σ} {c : κ}
    {k : Prog ρ κ ν α} (hR : R t s) (hwait : m.ready s c = false) :
    R (bus.cycle body (t, .wait c k)).1 s ∧ (bus.cycle body (t, .wait c k)).2 = .wait c k := by
  obtain ⟨hpoll, hafter⟩ := h.poll c hR
  exact ⟨hafter, by simp [Bus.cycle, hpoll, hwait]⟩

/-- Left alone, the bus gets where the model leads. -/
theorem follow (h : Implements bus m R) {body : α → Prog ρ κ ν α} {c d : σ × Prog ρ κ ν α}
    (hleads : m.Leads body c d) {t : τ} (hR : R t c.1) :
    ∃ n, R ((bus.cycle body)^[n] (t, c.2)).1 d.1 ∧ ((bus.cycle body)^[n] (t, c.2)).2 = d.2 := by
  induction hleads using Relation.ReflTransGen.head_induction_on generalizing t with
  | refl => exact ⟨0, hR, rfl⟩
  | @head c c' hstep _ ih =>
      obtain ⟨hafter, hprog⟩ := h.cycle (p := c.2) hR hstep
      obtain ⟨n, hn⟩ := ih hafter
      refine ⟨n + 1, ?_⟩
      rw [Function.iterate_succ_apply]
      rwa [← hprog] at hn

end Implements

/-- Further input changes nothing about what the model already allows. -/
structure Model.Feeds (m : Model σ ρ κ ν) (feed : σ → List ω → σ) : Prop where
  nil : ∀ s, feed s [] = s
  append : ∀ s us ws, feed (feed s us) ws = feed s (us ++ ws)
  ask : ∀ {s r v s'} (ws : List ω), m.ask s r = some (v, s') →
    m.ask (feed s ws) r = some (v, feed s' ws)
  ready : ∀ {s c} (ws : List ω), m.ready s c = true → m.ready (feed s ws) c = true

theorem Model.Feeds.next {m : Model σ ρ κ ν} {feed : σ → List ω → σ} (h : m.Feeds feed)
    {body : α → Prog ρ κ ν α} (ws : List ω) {s s' : σ} {p p' : Prog ρ κ ν α}
    (hnext : m.next body (s, p) = some (s', p')) :
    m.next body (feed s ws, p) = some (feed s' ws, p') := by
  cases p with
  | ret a =>
      cases hnext
      rfl
  | ask r k =>
      simp only [Model.next, Option.map_eq_some_iff] at hnext
      obtain ⟨⟨v, s₁⟩, hask, heq⟩ := hnext
      cases heq
      simp [Model.next, h.ask ws hask]
  | wait c k =>
      simp only [Model.next, Option.ite_none_right_eq_some] at hnext
      obtain ⟨hready, heq⟩ := hnext
      cases heq
      simp [Model.next, h.ready ws hready]

theorem Model.Feeds.leads {m : Model σ ρ κ ν} {feed : σ → List ω → σ} (h : m.Feeds feed)
    {body : α → Prog ρ κ ν α} (ws : List ω) {c d : σ × Prog ρ κ ν α} (hleads : m.Leads body c d) :
    m.Leads body (feed c.1 ws, c.2) (feed d.1 ws, d.2) := by
  induction hleads with
  | refl => exact .refl
  | tail _ hstep ih => exact .tail ih (h.next ws hstep)

/-- An access of the program, or something else that happens to the bus. -/
inductive Event (ε : Type)
  | access
  | other (e : ε)
deriving DecidableEq, Repr

def Bus.step (bus : Bus τ ρ κ ν) (body : α → Prog ρ κ ν α) (act : τ → ε → τ)
    (c : τ × Prog ρ κ ν α) : Event ε → τ × Prog ρ κ ν α
  | .access => bus.cycle body c
  | .other e => (act c.1 e, c.2)

/-- The side condition on what else happens. -/
def Allowed (ok : τ → ε → Prop) (c : τ × Prog ρ κ ν α) : Event ε → Prop
  | .access => True
  | .other e => ok c.1 e

instance (ok : τ → ε → Prop) [∀ t e, Decidable (ok t e)] (c : τ × Prog ρ κ ν α) :
    (i : Event ε) → Decidable (Allowed ok c i)
  | .access => .isTrue trivial
  | .other e => inferInstanceAs (Decidable (ok c.1 e))

theorem Bus.run_accesses (bus : Bus τ ρ κ ν) (body : α → Prog ρ κ ν α) (act : τ → ε → τ)
    (c : τ × Prog ρ κ ν α) (n : Nat) :
    Runs.run (bus.step body act) c (List.replicate n .access) = (bus.cycle body)^[n] c := by
  induction n generalizing c with
  | zero => rfl
  | succ n ih =>
      rw [List.replicate_succ, Runs.run_cons, ih]
      rfl

theorem Bus.along_accesses (bus : Bus τ ρ κ ν) (body : α → Prog ρ κ ν α) (act : τ → ε → τ)
    (ok : τ → ε → Prop) (c : τ × Prog ρ κ ν α) (n : Nat) :
    Runs.Along (bus.step body act) (Allowed ok) c (List.replicate n .access) := by
  induction n generalizing c with
  | zero => exact trivial
  | succ n ih => exact ⟨trivial, ih _⟩

/-- The input in an event. -/
def Event.given (given : ε → List ω) : Event ε → List ω
  | .access => []
  | .other e => given e

/-- Where a program stays until there is more input: it waits, or it has returned
and goes round in an empty loop. -/
structure Model.Rests (m : Model σ ρ κ ν) (body : α → Prog ρ κ ν α) (c : σ × Prog ρ κ ν α) :
    Prop where
  not_ask : ∀ r k, c.2 ≠ .ask r k
  back : ∀ d, m.next body c = some d → m.Leads body d c

theorem Model.Rests.of_wait {m : Model σ ρ κ ν} {body : α → Prog ρ κ ν α} {s : σ} {c : κ}
    {k : Prog ρ κ ν α} (h : m.ready s c = false) : m.Rests body (s, .wait c k) where
  not_ask := by simp
  back := by simp [Model.next, h]

theorem Model.Rests.of_ret {m : Model σ ρ κ ν} {body : α → Prog ρ κ ν α} {s : σ} {a : α}
    (h : body a = .ret a) : m.Rests body (s, .ret a) where
  not_ask := by simp
  back := by
    intro d hd
    cases hd
    rw [h]
    exact .refl

section Interleaving
variable {bus : Bus τ ρ κ ν} {m : Model σ ρ κ ν} {R : τ → σ → Prop} {feed : σ → List ω → σ}
  {body : α → Prog ρ κ ν α} {act : τ → ε → τ} {ok : τ → ε → Prop} {given : ε → List ω}
  {goal : List ω → σ × Prog ρ κ ν α}

/-- An access of the program stays on the way to where it rests. -/
theorem Implements.access (h : Implements bus m R) {c : τ × Prog ρ κ ν α} {s : σ}
    {d : σ × Prog ρ κ ν α} (hrests : m.Rests body d) (hR : R c.1 s)
    (hleads : m.Leads body (s, c.2) d) :
    ∃ s', R (bus.cycle body c).1 s' ∧ m.Leads body (s, c.2) (s', (bus.cycle body c).2) ∧
      m.Leads body (s', (bus.cycle body c).2) d := by
  obtain ⟨t, p⟩ := c
  cases hnext : m.next body (s, p) with
  | some c' =>
      obtain ⟨hafter, hprog⟩ := h.cycle hR hnext
      refine ⟨c'.1, hafter, ?_⟩
      rw [hprog]
      refine ⟨.single hnext, ?_⟩
      rcases hleads.cases_head with heq | ⟨c'', hstep, hrest⟩
      · subst heq
        exact hrests.back c' hnext
      · cases hnext.symm.trans hstep
        exact hrest
  | none =>
      -- Nothing is allowed here, so this is the resting place, and it is a wait.
      rcases hleads.cases_head with heq | ⟨c'', hstep, -⟩
      · subst heq
        cases p with
        | ret a => cases hnext
        | ask r k => exact absurd rfl (hrests.not_ask r k)
        | wait c k =>
            have hwait : m.ready s c = false := by simpa [Model.next] using hnext
            obtain ⟨hafter, hprog⟩ := h.cycle_wait body (k := k) hR hwait
            refine ⟨s, hafter, ?_⟩
            rw [hprog]
            exact ⟨.refl, .refl⟩
      · cases hnext.symm.trans hstep

variable (himplements : Implements bus m R) (hfeeds : m.Feeds feed)
  (hact : ∀ t s e, R t s → ok t e → R (act t e) (feed s (given e)))
  (hrests : ∀ ws, m.Rests body (goal ws))
  (hmore : ∀ ws more, m.Leads body (feed (goal ws).1 more, (goal ws).2) (goal (ws ++ more)))
include himplements hfeeds hact hrests hmore

/-- However the accesses and the input are interleaved, the program is on its way
from the start, given all the input at once, to where the input leads. -/
theorem on_the_way {c : τ × Prog ρ κ ν α} {s : σ} {ws : List ω} (hR : R c.1 s)
    (hleads : m.Leads body (s, c.2) (goal ws)) (events : List (Event ε))
    (hok : Runs.Along (bus.step body act) (Allowed ok) c events) :
    ∃ s', R (Runs.run (bus.step body act) c events).1 s' ∧
      m.Leads body (feed s (events.flatMap (Event.given given)), c.2)
        (s', (Runs.run (bus.step body act) c events).2) ∧
      m.Leads body (s', (Runs.run (bus.step body act) c events).2)
        (goal (ws ++ events.flatMap (Event.given given))) := by
  induction events generalizing c s ws with
  | nil =>
      refine ⟨s, hR, ?_, by simpa using hleads⟩
      rw [List.flatMap_nil, hfeeds.nil]
      exact .refl
  | cons i events ih =>
      obtain ⟨hi, hrest⟩ := hok
      rw [List.flatMap_cons, ← List.append_assoc]
      cases i with
      | access =>
          obtain ⟨s₁, hafter, hfrom, hon⟩ := himplements.access (hrests ws) hR hleads
          have hon' : m.Leads body (s₁, (bus.cycle body c).2) (goal (ws ++ [])) := by
            rwa [List.append_nil]
          obtain ⟨s', hend, hpast, hahead⟩ := ih (c := bus.cycle body c) hafter hon' hrest
          exact ⟨s', hend, (hfeeds.leads _ hfrom).trans hpast, hahead⟩
      | other e =>
          obtain ⟨s', hend, hpast, hahead⟩ :=
            ih (c := (act c.1 e, c.2)) (hact c.1 s e hR hi)
              ((hfeeds.leads (given e) hleads).trans (hmore ws (given e))) hrest
          rw [hfeeds.append] at hpast
          exact ⟨s', hend, hpast, hahead⟩

/-- The program is before the first resting place, or between two of them that are
one piece of input apart. -/
theorem between {c : τ × Prog ρ κ ν α} {s : σ} (hR : R c.1 s)
    (hleads : m.Leads body (s, c.2) (goal [])) (events : List (Event ε))
    (hok : Runs.Along (bus.step body act) (Allowed ok) c events) :
    let ws := events.flatMap (Event.given given)
    let stage := fun k => (feed (goal (ws.take k)).1 (ws.drop k), (goal (ws.take k)).2)
    ∃ s', R (Runs.run (bus.step body act) c events).1 s' ∧
      m.Leads body (feed s ws, c.2) (s', (Runs.run (bus.step body act) c events).2) ∧
      (m.Leads body (s', (Runs.run (bus.step body act) c events).2) (stage 0) ∨
        ∃ k < ws.length,
          m.Leads body (stage k) (s', (Runs.run (bus.step body act) c events).2) ∧
          m.Leads body (s', (Runs.run (bus.step body act) c events).2) (stage (k + 1))) := by
  intro ws stage
  obtain ⟨s', hafter, hpast, hahead⟩ :=
    on_the_way himplements hfeeds hact hrests hmore hR hleads events hok
  refine ⟨s', hafter, hpast, ?_⟩
  have hlast : stage ws.length = goal ([] ++ ws) := by
    simp [stage, hfeeds.nil]
  refine hpast.between (hfeeds.leads ws hleads) (fun k hk => ?_) (hlast ▸ hahead)
  -- The next piece of input leads to the next resting place, whatever is behind it.
  have hone := hfeeds.leads (ws.drop (k + 1)) (hmore (ws.take k) [ws[k]])
  rwa [hfeeds.append, List.singleton_append, List.getElem_cons_drop,
    List.take_append_getElem hk] at hone

/-- After any interleaving, enough accesses of the program get it there. -/
theorem settles {c : τ × Prog ρ κ ν α} {s : σ} {ws : List ω} (hR : R c.1 s)
    (hleads : m.Leads body (s, c.2) (goal ws)) (events : List (Event ε))
    (hok : Runs.Along (bus.step body act) (Allowed ok) c events) :
    ∃ n, R ((bus.cycle body)^[n] (Runs.run (bus.step body act) c events)).1
        (goal (ws ++ events.flatMap (Event.given given))).1 ∧
      ((bus.cycle body)^[n] (Runs.run (bus.step body act) c events)).2 =
        (goal (ws ++ events.flatMap (Event.given given))).2 := by
  obtain ⟨s', hafter, -, hahead⟩ :=
    on_the_way himplements hfeeds hact hrests hmore hR hleads events hok
  exact himplements.follow hahead hafter

end Interleaving

end Programs
