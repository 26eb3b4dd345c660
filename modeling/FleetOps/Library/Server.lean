import Mathlib.Data.List.Induction

namespace Server

variable {S T A B : Type*} (serve : S → A → S × B)

-- A server answers every request, and its state goes on to the next one.
def after (s : S) (requests : List A) : S := requests.foldl (fun s a => (serve s a).1) s

def answers : S → List A → List (A × B)
  | _, [] => []
  | s, a :: requests => (a, (serve s a).2) :: answers (serve s a).1 requests

variable {serve}

theorem after_append_singleton (s : S) (requests : List A) (a : A) :
    after serve s (requests ++ [a]) = (serve (after serve s requests) a).1 := by
  simp [after]

theorem answers_append_singleton (s : S) (requests : List A) (a : A) :
    answers serve s (requests ++ [a]) =
      answers serve s requests ++ [(a, (serve (after serve s requests) a).2)] := by
  induction requests generalizing s with
  | nil => rfl
  | cons q requests ih => simpa [answers, after] using ih (serve s q).1

variable (serve) in
@[simp] theorem map_fst_answers (s : S) (requests : List A) :
    (answers serve s requests).map Prod.fst = requests := by
  induction requests generalizing s with
  | nil => rfl
  | cons a requests ih => rw [answers, List.map_cons, ih]

-- Every answer is the one the server gives after the requests before it.
theorem mem_answers {s : S} {requests : List A} {d : A × B} :
    d ∈ answers serve s requests ↔
      ∃ before rest, requests = before ++ d.1 :: rest ∧ d.2 = (serve (after serve s before) d.1).2 := by
  induction requests generalizing s with
  | nil => simp [answers]
  | cons q requests ih =>
      rw [answers, List.mem_cons, ih]
      constructor
      · rintro (rfl | ⟨before, rest, rfl, hd⟩)
        · exact ⟨[], requests, rfl, rfl⟩
        · exact ⟨q :: before, rest, rfl, hd⟩
      · rintro ⟨before, rest, hsplit, hd⟩
        cases before with
        | nil =>
            cases hsplit
            exact Or.inl (Prod.ext rfl hd)
        | cons p before =>
            cases hsplit
            exact Or.inr ⟨before, rest, rfl, hd⟩

-- Two servers that answer alike after every part of the requests answer alike.
theorem answers_congr {serve' : T → A → T × B} {s : S} {t : T} {requests : List A}
    (hsame : ∀ before a rest, requests = before ++ a :: rest →
      (serve (after serve s before) a).2 = (serve' (after serve' t before) a).2) :
    answers serve s requests = answers serve' t requests := by
  induction requests using List.reverseRecOn with
  | nil => rfl
  | append_singleton requests a ih =>
      rw [answers_append_singleton, answers_append_singleton, hsame requests a [] rfl, ih]
      intro before q rest hsplit
      refine hsame before q (rest ++ [a]) ?_
      rw [hsplit, List.append_assoc, List.cons_append]

-- Requests outside a class leave the answers within it as they would be without them:
-- `R` relates what the class sees of the state with them and without them.
theorem answers_filter (R : S → S → Prop) (mine : A → Bool)
    (hother : ∀ s t a, mine a = false → R s t → R (serve s a).1 t)
    (hmine : ∀ s t a, mine a = true → R s t →
      (serve s a).2 = (serve t a).2 ∧ R (serve s a).1 (serve t a).1)
    {s t : S} (hrel : R s t) (requests : List A) :
    (answers serve s requests).filter (fun d => mine d.1) =
      answers serve t (requests.filter mine) := by
  induction requests generalizing s t with
  | nil => rfl
  | cons a requests ih =>
      cases ha : mine a with
      | false =>
          rw [answers, List.filter_cons_of_neg (by simp [ha]), List.filter_cons_of_neg (by simp [ha])]
          exact ih (hother s t a ha hrel)
      | true =>
          obtain ⟨hanswer, hnext⟩ := hmine s t a ha hrel
          rw [answers, List.filter_cons_of_pos (by simp [ha]), List.filter_cons_of_pos ha, answers,
            hanswer, ih hnext]

end Server
