import LoadBench.Proofs.Text.Trimming
import LoadBench.Settings

/-!
# The address of an endpoint

An address is put together of three texts that may end and begin in any number of slashes. At the
joint in front of the path they are all cut off, and one is put there. At the joint behind the base
none is put there: the common part brings its slashes along. So the address is what it should be,
with one slash at each joint, if the common part begins with exactly one slash or is made of slashes
only; and with no slash in front of it, the common part runs into the name of the service.

Results:
* `Settings.trimSlashes_eq`: what is left of a text are its slashes in front and the text between
  the slashes around it.
* `Settings.url_eq_joined_iff`: for which settings there is one slash at each joint.
* `Settings.url_slashes`, `Settings.url_slashes_front`: which slashes make no difference, and which
  do.
* `Settings.url_joints`: all of this of one address.
-/

namespace LoadBench

/-! ## Slashes around a text -/

namespace Settings

/-- A row of slashes. -/
def slashes (n : Nat) : String := .ofList (List.replicate n '/')

/-- The text is made of slashes only. -/
def IsSlashes (s : String) : Prop := ∀ c ∈ s.toList, c = '/'

theorem isSlashes_iff {s : String} : IsSlashes s ↔ ∀ c ∈ s.toList, (c == '/') = true := by
  simp only [IsSlashes, beq_iff_eq]

instance (s : String) : Decidable (IsSlashes s) :=
  decidable_of_iff (s.toList.all (· == '/') = true) (List.all_eq_true.trans isSlashes_iff.symm)

/-- The number of slashes in front of a text. -/
def slashesInFront (s : String) : Nat := (s.toList.takeWhile (· == '/')).length

/-- A text without the slashes in front. -/
def dropSlashes (s : String) : String := .ofList (s.toList.dropWhile (· == '/'))

/-- A text without the slashes around it. -/
def bare (s : String) : String := trimSlashes (dropSlashes s)

variable {s : String}

theorem mem_slashes (n : Nat) : ∀ c ∈ (slashes n).toList, (c == '/') = true := by
  intro c hc
  rw [slashes, String.toList_ofList] at hc
  exact beq_iff_eq.mpr (List.eq_of_mem_replicate hc)

theorem slashes_append_dropSlashes (s : String) :
    slashes (slashesInFront s) ++ dropSlashes s = s := by
  have hfront : List.replicate (slashesInFront s) '/' = s.toList.takeWhile (· == '/') := by
    refine (List.eq_replicate_of_mem fun c hc => ?_).symm
    have hslash := List.mem_takeWhile_imp (p := (· == '/')) hc
    exact beq_iff_eq.mp hslash
  rw [← String.toList_inj, String.toList_append, slashes, dropSlashes, String.toList_ofList,
    String.toList_ofList, hfront, List.takeWhile_append_dropWhile]

theorem dropSlashes_slashes_append (n : Nat) (s : String) :
    dropSlashes (slashes n ++ s) = dropSlashes s := by
  rw [dropSlashes, String.toList_append, List.dropWhile_append_of_pos (mem_slashes n), dropSlashes]

theorem isSlashes_slashes_append (n : Nat) (s : String) :
    IsSlashes (slashes n ++ s) ↔ IsSlashes s := by
  simp only [isSlashes_iff, String.toList_append, List.mem_append]
  exact ⟨fun h c hc => h c (.inr hc), fun h c hc => hc.elim (mem_slashes n c) (h c)⟩

theorem trimSlashes_of_isSlashes (h : IsSlashes s) : trimSlashes s = "" := by
  rw [trimSlashes, Text.dropEndWhile_eq_nil (isSlashes_iff.mp h)]

theorem trimSlashes_append_slashes (s : String) (n : Nat) :
    trimSlashes (s ++ slashes n) = trimSlashes s := by
  rw [trimSlashes, String.toList_append, Text.dropEndWhile_append_of_all (mem_slashes n),
    trimSlashes]

/-- The slashes in front of a text stay if there is anything behind them. -/
theorem trimSlashes_slashes_append (n : Nat) (h : ¬ IsSlashes s) :
    trimSlashes (slashes n ++ s) = slashes n ++ trimSlashes s := by
  rw [isSlashes_iff] at h
  rw [trimSlashes, String.toList_append, Text.dropEndWhile_append_of_not_all h,
    String.ofList_append, String.ofList_toList, trimSlashes]

/-- What is left of a text are its slashes in front and the text between the slashes around it. -/
theorem trimSlashes_eq (h : ¬ IsSlashes s) :
    trimSlashes s = slashes (slashesInFront s) ++ bare s := by
  have hrest : ¬ IsSlashes (dropSlashes s) := by
    rwa [← isSlashes_slashes_append (slashesInFront s), slashes_append_dropSlashes]
  calc trimSlashes s = trimSlashes (slashes (slashesInFront s) ++ dropSlashes s) := by
        rw [slashes_append_dropSlashes]
    _ = slashes (slashesInFront s) ++ bare s := trimSlashes_slashes_append _ hrest

theorem slashes_append_inj {m n : Nat} (s : String) :
    slashes m ++ s = slashes n ++ s ↔ m = n := by
  refine ⟨fun h => ?_, fun h => by rw [h]⟩
  have hlength := congrArg (fun t => t.toList.length) h
  simpa [slashes] using hlength

/-! ## One slash at each joint -/

/-- Three texts joined with one slash at each joint: the base without the slashes at its end, the
    common part without those around it, and the path without those in front. A common part that is
    made of slashes only is left out. -/
def joined (base common path : String) : String :=
  trimSlashes base ++ (if IsSlashes common then "" else "/" ++ bare common) ++ "/"
    ++ dropSlashes path

theorem url_eq (s : Settings) (path : String) :
    s.url path = trimSlashes s.baseUrl ++ trimSlashes s.apiPrefix ++ "/" ++ dropSlashes path := rfl

/-- Only what stands between the base and the path tells two addresses apart. -/
theorem joint_inj {base common common' rest : String} :
    base ++ common ++ "/" ++ rest = base ++ common' ++ "/" ++ rest ↔ common = common' := by
  simp only [← String.toList_inj, String.toList_append, List.append_cancel_right_eq,
    List.append_cancel_left_eq]

/-- The common part keeps its slashes in front, and none is put there. -/
theorem url_eq_joined_iff (s : Settings) (path : String) :
    s.url path = joined s.baseUrl s.apiPrefix path ↔
      IsSlashes s.apiPrefix ∨ slashesInFront s.apiPrefix = 1 := by
  rw [url_eq, joined, joint_inj]
  by_cases h : IsSlashes s.apiPrefix
  · rw [trimSlashes_of_isSlashes h, if_pos h]
    exact iff_of_true rfl (.inl h)
  · have hone : "/" = slashes 1 := rfl
    rw [trimSlashes_eq h, if_neg h, hone, slashes_append_inj]
    simp [h]

/-- Slashes at the ends of the base and of the common part, and in front of the path, make no
    difference. -/
theorem url_slashes (s : Settings) (path : String) (k l m : Nat) :
    url { s with baseUrl := s.baseUrl ++ slashes k, apiPrefix := s.apiPrefix ++ slashes l }
      (slashes m ++ path) = s.url path := by
  rw [url_eq, url_eq, trimSlashes_append_slashes, trimSlashes_append_slashes,
    dropSlashes_slashes_append]

/-- Slashes in front of the common part make a difference, unless it is made of slashes only. -/
theorem url_slashes_front (s : Settings) (path : String) (n : Nat) :
    url { s with apiPrefix := slashes n ++ s.apiPrefix } path = s.url path ↔
      IsSlashes s.apiPrefix ∨ n = 0 := by
  rw [url_eq, url_eq, joint_inj]
  by_cases h : IsSlashes s.apiPrefix
  · rw [trimSlashes_of_isSlashes h,
      trimSlashes_of_isSlashes ((isSlashes_slashes_append n _).mpr h)]
    exact iff_of_true rfl (.inl h)
  · have hnone (t : String) : t = slashes 0 ++ t := (String.empty_append).symm
    show trimSlashes (slashes n ++ s.apiPrefix) = trimSlashes s.apiPrefix ↔ _
    rw [trimSlashes_slashes_append n h]
    nth_rewrite 2 [hnone (trimSlashes s.apiPrefix)]
    rw [slashes_append_inj]
    simp [h]

/-- For which settings there is one slash at each joint of an address, and which slashes make no
    difference: those at the ends of the base and of the common part and those in front of the path,
    but not those in front of the common part. -/
theorem url_joints (s : Settings) (path : String) :
    (s.url path = joined s.baseUrl s.apiPrefix path ↔
      IsSlashes s.apiPrefix ∨ slashesInFront s.apiPrefix = 1) ∧
    (∀ k l m,
      url { s with baseUrl := s.baseUrl ++ slashes k, apiPrefix := s.apiPrefix ++ slashes l }
        (slashes m ++ path) = s.url path) ∧
    ∀ n, url { s with apiPrefix := slashes n ++ s.apiPrefix } path = s.url path ↔
      IsSlashes s.apiPrefix ∨ n = 0 :=
  ⟨url_eq_joined_iff s path, url_slashes s path, url_slashes_front s path⟩

/-- The standard settings with a common part that begins with no slash. -/
def slashless : Settings := { standard with apiPrefix := "api/v1" }

/-- The address of an endpoint is not always joined with one slash at each joint. -/
theorem not_url_eq_joined : ¬ ∀ (s : Settings) (path : String), s.validate = .ok () →
    s.url path = joined s.baseUrl s.apiPrefix path := by
  intro h
  have hjoined := h slashless "ping" rfl
  rw [url_eq_joined_iff] at hjoined
  revert hjoined
  decide

/-- The name of the service runs into the common part. -/
example : slashless.url "ping" = "http://localhost:7777api/v1/ping" := by decide

end Settings

end LoadBench
