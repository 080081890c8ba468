import Mathlib.Tactic.Common

/-!
# Scripts that may be cut short

A script is a list of commands. It comes to its end, or a command fails and the rest is not run,
or it is interrupted before a command or in the middle of one. `Triple` says what holds at the
end and what holds when it stops before; its rules follow the structure of the list.
-/

namespace Lib

universe u v w

variable {C : Type u} {S : Type v}

/-- What a command may do: all of it, what it leaves when it fails, and what it leaves when it is
interrupted. -/
structure Shell (C : Type u) (S : Type v) where
  done : C → S → S → Prop
  failed : C → S → S → Prop
  interrupted : C → S → S → Prop

/-- How a script ends. -/
inductive ScriptEnd where
  | done
  | failed
  | interrupted
  deriving DecidableEq

inductive Script (L : Shell C S) : List C → S → ScriptEnd → S → Prop
  | nil (s : S) : Script L [] s .done s
  | stop (cs : List C) (s : S) : Script L cs s .interrupted s
  | failed {c : C} {s t : S} (cs : List C) : L.failed c s t → Script L (c :: cs) s .failed t
  | interrupted {c : C} {s t : S} (cs : List C) : L.interrupted c s t →
      Script L (c :: cs) s .interrupted t
  | step {c : C} {cs : List C} {s t u : S} {e : ScriptEnd} : L.done c s t → Script L cs t e u →
      Script L (c :: cs) s e u

/-- Started where `P` holds, the script ends where `Q` does, or stops before where `E` does. -/
def Triple (L : Shell C S) (P : S → Prop) (cs : List C) (Q : S → Prop) (E : ScriptEnd → S → Prop) :
    Prop :=
  ∀ s, P s → ∀ e t, Script L cs s e t → if e = .done then Q t else E e t

namespace Triple

variable {L : Shell C S} {P Q R : S → Prop} {E : ScriptEnd → S → Prop} {c : C} {cs ds : List C}

theorem nil (hstop : ∀ s, P s → E .interrupted s) : Triple L P [] P E := by
  intro s hs e t hrun
  cases hrun with
  | nil => exact hs
  | stop => exact hstop s hs

/-- One command, and the rest from what it leaves. -/
theorem cons (hstop : ∀ s, P s → E .interrupted s)
    (hfailed : ∀ s t, P s → L.failed c s t → E .failed t)
    (hinterrupted : ∀ s t, P s → L.interrupted c s t → E .interrupted t)
    (hdone : ∀ s t, P s → L.done c s t → R t) (hrest : Triple L R cs Q E) :
    Triple L P (c :: cs) Q E := by
  intro s hs e t hrun
  cases hrun with
  | stop => exact hstop s hs
  | failed _ h => exact hfailed s t hs h
  | interrupted _ h => exact hinterrupted s t hs h
  | step h hrun => exact hrest _ (hdone s _ hs h) e t hrun

theorem mono_pre (h : Triple L R cs Q E) (hpre : ∀ s, P s → R s) : Triple L P cs Q E :=
  fun s hs => h s (hpre s hs)

theorem mono_post (h : Triple L P cs R E) (hpost : ∀ s, R s → Q s) : Triple L P cs Q E := by
  intro s hs e t hrun
  have hend := h s hs e t hrun
  split at hend
  next he =>
    rw [if_pos he]
    exact hpost t hend
  next he =>
    rw [if_neg he]
    exact hend

theorem append (h : Triple L P cs R E) (h' : Triple L R ds Q E) :
    Triple L P (cs ++ ds) Q E := by
  induction cs generalizing P with
  | nil => exact h'.mono_pre fun s hs => h s hs .done s (.nil s)
  | cons c cs ih =>
    intro s hs e t hrun
    cases hrun with
    | stop => exact h s hs .interrupted s (.stop _ s)
    | failed _ hfailed => exact h s hs .failed t (.failed _ hfailed)
    | interrupted _ hinterrupted => exact h s hs .interrupted t (.interrupted _ hinterrupted)
    | step hdone hrun =>
      -- what the first command may leave is where the rest starts
      have hrest : Triple L (L.done c s) cs R E := fun u hu e t hrun =>
        h s hs e t (.step hu hrun)
      exact ih hrest _ hdone e t hrun

/-- The same commands for one thing after the other, with an invariant of what is done. -/
theorem forEach {ι : Type w} {f : ι → List C} {I : List ι → S → Prop}
    (hstop : ∀ before s, I before s → E .interrupted s)
    (h : ∀ before i, i ∉ before → Triple L (I before) (f i) (I (before ++ [i])) E)
    {is : List ι} (hnodup : is.Nodup) : Triple L (I []) (is.flatMap f) (I is) E := by
  have hall : ∀ (is before : List ι), (before ++ is).Nodup →
      Triple L (I before) (is.flatMap f) (I (before ++ is)) E := by
    intro is
    induction is with
    | nil =>
      intro before _
      rw [List.append_nil]
      exact nil (hstop before)
    | cons i is ih =>
      intro before hnodup
      rw [List.flatMap_cons]
      have hnew : i ∉ before := fun hi =>
        (List.nodup_append.mp hnodup).2.2 i hi i List.mem_cons_self rfl
      have hrest := ih (before ++ [i]) (by rwa [List.append_assoc, List.singleton_append])
      rw [List.append_assoc, List.singleton_append] at hrest
      exact (h before i hnew).append hrest
  exact hall is [] hnodup

/-- Where a script stops. -/
theorem stopped (h : Triple L P cs Q E) {s t : S} {e : ScriptEnd} (hs : P s)
    (hrun : Script L cs s e t) (he : e ≠ .done) : E e t := by
  have hend := h s hs e t hrun
  rwa [if_neg he] at hend

theorem finished (h : Triple L P cs Q E) {s t : S} (hs : P s) (hrun : Script L cs s .done t) :
    Q t := by
  have hend := h s hs .done t hrun
  rwa [if_pos rfl] at hend

end Triple

end Lib
