import OnlinetLabs.Lib.NamedValues
import OnlinetLabs.Observability.Redact

/-!
# Secrets in a detail

Two details that differ only in what is stored under secret keys, at any depth, should be redacted
alike. They are where the keys are those of the detail itself, since these are masked before
anything looks at the values. What is nested is not masked.
-/

namespace OnlinetLabs.Observability

variable (lower : List Char → List Char) (x : Json)

def isSecretName (name : String) : Bool := isSecret lower name.toList

/-- The entry with `x` for what is stored under secret keys. -/
def fillEntry (entry : Key × Json) : Key × Json :=
  (entry.1, if isSecret lower entry.1.text then x else Json.fill (isSecretName lower) x entry.2)

/-- The details differ only in what is stored under secret keys, at any depth. -/
def Alike (detail detail' : Detail) : Prop :=
  detail.map (fillEntry lower .null) = detail'.map (fillEntry lower .null)

/-- No value but that of a secret key has secret keys in it. -/
def SecretsOnTop (detail : Detail) : Prop :=
  ∀ entry ∈ detail, isSecret lower entry.1.text = false →
    entry.2.hasNamed (isSecretName lower) = false

/-- What `redact` returns, if it does, does not depend on the secrets. -/
def KeepsSecrets (maxFieldLen maxTotal : Int) (detail : Detail) : Prop :=
  ∀ detail', Alike lower detail detail' → ∀ result,
    Redacts lower maxFieldLen maxTotal (some detail) result
      ↔ Redacts lower maxFieldLen maxTotal (some detail') result

variable {lower x} {detail detail' : Detail} {maxFieldLen maxTotal : Int} {value : Json}

theorem masked_eq {entry entry' : Key × Json}
    (h : isSecret lower entry.1.text = false → entry.2.hasNamed (isSecretName lower) = false)
    (heq : fillEntry lower .null entry = fillEntry lower .null entry') :
    masked lower maxFieldLen entry = masked lower maxFieldLen entry' := by
  obtain ⟨key, value⟩ := entry
  obtain ⟨key', value'⟩ := entry'
  simp only [fillEntry, Prod.mk.injEq] at heq
  obtain ⟨rfl, heq⟩ := heq
  cases hsecret : isSecret lower key.text with
  | true => simp only [masked, hsecret, if_true]
  | false =>
    rw [hsecret, if_neg Bool.false_ne_true, if_neg Bool.false_ne_true] at heq
    have hvalue : value = value' := Json.eq_of_fill_eq_fill (h hsecret) heq
    rw [hvalue]

theorem map_masked_eq (h : SecretsOnTop lower detail) (halike : Alike lower detail detail') :
    detail.map (masked lower maxFieldLen) = detail'.map (masked lower maxFieldLen) := by
  induction detail generalizing detail' with
  | nil => rw [List.map_eq_nil_iff.mp halike.symm]
  | cons entry detail ih =>
    obtain ⟨hentry, hdetail⟩ := List.forall_mem_cons.mp h
    cases detail' with
    | nil => cases halike
    | cons entry' detail' =>
      obtain ⟨heq, hrest⟩ := List.cons.inj halike
      rw [List.map_cons, List.map_cons, masked_eq hentry heq, ih hdetail hrest]

theorem alike_fill (x : Json) (detail : Detail) :
    Alike lower detail (detail.map (fillEntry lower x)) := by
  rw [Alike, List.map_map]
  apply List.map_congr_left
  intro entry _
  simp only [Function.comp_apply, fillEntry]
  split
  · rfl
  · rw [Json.fill_fill]

/-- A value with a secret in it is not cut. -/
theorem truncated_fill (h : value.hasNamed (isSecretName lower) = true) :
    truncated maxFieldLen (Json.fill (isSecretName lower) x value)
      = Json.fill (isSecretName lower) x value := by
  cases value with
  | arr items | obj fields => rfl
  | _ => cases h

/-- A detail that fits is returned as it was masked. -/
theorem redacts_of_fits {result : Detail}
    (h : dumpsLength (Detail.json (detail.map (masked lower maxFieldLen))) ≤ maxTotal) :
    Redacts lower maxFieldLen maxTotal (some detail) (some result)
      ↔ result = detail.map (masked lower maxFieldLen) := by
  have hstop :
      turn maxTotal (detail.map (masked lower maxFieldLen))
      = .inr (detail.map (masked lower maxFieldLen)) :=
    (turn_of_stop fun hgo => Int.not_le.mpr hgo.1 h).1
  simp only [redacts_iff, Loop.ends_of_inr hstop, exists_eq_right, Option.some.injEq]

theorem ofNat_zero_ne_ofNat_one : Json.ofNat 0 ≠ Json.ofNat 1 := by
  intro h
  have htext := congrArg Numeral.text (Json.num.inj h)
  revert htext
  decide

/-- **When the secrets are kept**, whatever the caps. -/
theorem keepsSecrets_iff (lower : List Char → List Char) (detail : Detail) :
    (∀ maxFieldLen maxTotal, KeepsSecrets lower maxFieldLen maxTotal detail)
      ↔ SecretsOnTop lower detail := by
  constructor
  · intro h entry hentry hsecret
    rw [← Bool.not_eq_true]
    intro hnamed
    -- two numbers for what is stored under the key, and a cap that both details fit
    let filled := fun n : Nat => detail.map (fillEntry lower (Json.ofNat n))
    let text := fun n : Nat => Detail.json ((filled n).map (masked lower 0))
    let cap : Int := max (dumpsLength (text 0)) (dumpsLength (text 1))
    have hzero : Redacts lower 0 cap (some (filled 0)) (some ((filled 0).map (masked lower 0))) :=
      (redacts_of_fits (Int.le_max_left _ _)).mpr rfl
    have hone : Redacts lower 0 cap (some (filled 1)) (some ((filled 0).map (masked lower 0))) :=
      (h 0 cap _ (alike_fill _ detail) _).mp ((h 0 cap _ (alike_fill _ detail) _).mpr hzero)
    have hsame : (filled 0).map (masked lower 0) = (filled 1).map (masked lower 0) :=
      (redacts_of_fits (Int.le_max_right _ _)).mp hone
    rw [List.map_map, List.map_map] at hsame
    have hvalue := congrArg Prod.snd (List.map_inj_left.mp hsame entry hentry)
    simp only [Function.comp_apply, masked, fillEntry, hsecret, Bool.false_eq_true, if_false,
      truncated_fill hnamed] at hvalue
    exact ofNat_zero_ne_ofNat_one (Json.eq_of_fill_eq entry.2 hnamed hvalue)
  · intro h maxFieldLen maxTotal detail' halike result
    rw [redacts_iff, redacts_iff, map_masked_eq h halike]

def calledWith (password : String) : Detail :=
  [(.str "tool", .str "login"),
    (.str "args", .obj [("user", .str "ada"), ("password", .str password)])]

theorem masked_calledWith (password : String) :
    (calledWith password).map (masked asciiLower 500) = calledWith password := by
  have htool : isSecret asciiLower (Key.str "tool").text = false := by decide
  have hargs : isSecret asciiLower (Key.str "args").text = false := by decide
  have hlogin : truncated 500 (.str "login") = .str "login" := rfl
  simp only [calledWith, List.map_cons, List.map_nil, masked, htool, hargs, Bool.false_eq_true,
    if_false, hlogin]
  rfl

/-- **A nested password is kept as it is.** -/
theorem nested_password_not_kept : ¬KeepsSecrets asciiLower 500 4096 (calledWith "hunter2") := by
  intro h
  have halike : Alike asciiLower (calledWith "hunter2") (calledWith "letmein") := by
    have hpassword : isSecretName asciiLower "password" = true := by decide
    simp only [Alike, calledWith, List.map_cons, List.map_nil, fillEntry, Json.fill,
      Json.fillFields, hpassword, if_true]
  have hfits : ∀ password ∈ ["hunter2", "letmein"],
      (dumpsLength (Detail.json ((calledWith password).map (masked asciiLower 500))) : Int)
        ≤ 4096 := by
    intro password hpassword
    rw [masked_calledWith]
    revert password
    decide
  have hkept := (redacts_of_fits (hfits "hunter2" (by simp))).mpr (masked_calledWith "hunter2").symm
  have hsame := (redacts_of_fits (hfits "letmein" (by simp))).mp ((h _ halike _).mp hkept)
  rw [masked_calledWith] at hsame
  simp [calledWith] at hsame

end OnlinetLabs.Observability
