import Concourse.Lib.GoText
import Concourse.Creds.Secrets
import Concourse.Atc.Pipeline

/-!
# Subjects of ID tokens

`idtoken.TokenGenerator.generateSubject` names what a token is issued for: the team, the team
and the pipeline, those and the instance vars, or those and the job.  Each component is passed
through `escapeSlashes`, which writes `/` as `%2F`, and the components are joined by `/`.

We show that the subject is the escaped components of its scope joined by `/`
(`toList_generateSubject`), that components free of `%` can be read back from it
(`components_eq_of_generateSubject_eq`), and that `%` breaks this: a `/` and the text `%2F` in a
component escape alike, so two lookups with different teams get one subject in every scope
(`generateSubject_team_slash_percent`).

Only the subject scope of a `TokenGenerator` is read here; the issuer, the signing keys and the
token lifetime are left out.  Instance vars are those of `Atc.Pipeline`, printed by
`InstanceVars.String`.
-/

namespace Concourse
namespace Creds

open GoJson

/-- `idtoken.SubjectScope`, with the values `Valid` accepts; the manager refuses any other.
`pipelineInstance` is `SubjectScopeInstance`, the value `"instance"`. -/
inductive SubjectScope where
  | empty
  | team
  | pipeline
  | pipelineInstance
  | job
  deriving DecidableEq, Repr

/-- `idtoken.TokenGenerator`, of which `generateSubject` reads the scope. -/
structure TokenGenerator where
  subjectScope : SubjectScope
  deriving DecidableEq, Repr

/-- `escapeSlashes`: `strings.ReplaceAll(input, "/", "%2F")`. -/
def escapeSlashes (input : String) : String :=
  String.ofList (GoText.replaceAll input.toList ['/'] ['%', '2', 'F'])

section Subject

variable (isPrint : Char → Bool) (yamlUnmarshal : String → Except String Value)

/-- `params.InstanceVars.String()`; a nil map prints as the empty text. -/
def instanceVarsText (instanceVars : Option (List (String × Value))) : String :=
  match instanceVars with
  | some iv => Atc.instanceVarsString isPrint yamlUnmarshal iv
  | none => ""

/-- `TokenGenerator.generateSubject`; the empty scope falls through to the pipeline's. -/
def TokenGenerator.generateSubject (g : TokenGenerator)
    (params : SecretLookupParams (List (String × Value))) : String :=
  let team := escapeSlashes params.team
  let pipeline := escapeSlashes params.pipeline
  let ivars := escapeSlashes (instanceVarsText isPrint yamlUnmarshal params.instanceVars)
  let job := escapeSlashes params.job
  match g.subjectScope with
  | .team => team
  | .empty | .pipeline => team ++ "/" ++ pipeline
  | .pipelineInstance => team ++ "/" ++ pipeline ++ "/" ++ ivars
  | .job => team ++ "/" ++ pipeline ++ "/" ++ ivars ++ "/" ++ job

/-- The components of a lookup that a subject of the scope stands for, in the order it writes
them. -/
def SubjectScope.components (scope : SubjectScope)
    (params : SecretLookupParams (List (String × Value))) : List String :=
  match scope with
  | .team => [params.team]
  | .empty | .pipeline => [params.team, params.pipeline]
  | .pipelineInstance =>
    [params.team, params.pipeline, instanceVarsText isPrint yamlUnmarshal params.instanceVars]
  | .job =>
    [params.team, params.pipeline, instanceVarsText isPrint yamlUnmarshal params.instanceVars,
      params.job]

end Subject

/-! ## Escaping -/

/-- What `escapeSlashes` writes for one character. -/
def escapeChar (c : Char) : List Char :=
  if c = '/' then ['%', '2', 'F'] else [c]

theorem toList_escapeSlashes (s : String) :
    (escapeSlashes s).toList = s.toList.flatMap escapeChar := by
  simp only [escapeSlashes, String.toList_ofList, GoText.replaceAll_singleton]
  rfl

theorem slash_not_mem_escapeSlashes (s : String) : '/' ∉ (escapeSlashes s).toList := by
  simp only [toList_escapeSlashes, List.mem_flatMap, not_exists, not_and]
  intro c _
  unfold escapeChar
  split
  · decide
  · simpa [eq_comm]

/-- Reads `%2F` back as `/`. -/
def unescapeSlashes : List Char → List Char
  | '%' :: '2' :: 'F' :: rest => '/' :: unescapeSlashes rest
  | c :: rest => c :: unescapeSlashes rest
  | [] => []

/-- Text free of `%` is read back from its escape: no `%2F` in the escape came from the text. -/
theorem unescapeSlashes_flatMap_escapeChar :
    ∀ s : List Char, '%' ∉ s → unescapeSlashes (s.flatMap escapeChar) = s
  | [], _ => rfl
  | c :: s, h => by
    have ih := unescapeSlashes_flatMap_escapeChar s (List.not_mem_of_not_mem_cons h)
    have hc : c ≠ '%' := fun hc => h (hc ▸ List.mem_cons_self)
    by_cases hslash : c = '/'
    · subst hslash
      simp [escapeChar, unescapeSlashes, ih]
    · simp only [List.flatMap_cons, escapeChar, hslash, if_false, List.singleton_append]
      rw [unescapeSlashes.eq_def]
      split <;> simp_all

theorem escapeSlashes_injective {s t : String} (hs : '%' ∉ s.toList) (ht : '%' ∉ t.toList)
    (h : escapeSlashes s = escapeSlashes t) : s = t := by
  have h' := congrArg (fun u => unescapeSlashes u.toList) h
  simp only [toList_escapeSlashes, unescapeSlashes_flatMap_escapeChar _ hs,
    unescapeSlashes_flatMap_escapeChar _ ht] at h'
  exact String.toList_inj.mp h'

theorem map_escapeSlashes_injective :
    ∀ {xs ys : List String}, (∀ s ∈ xs, '%' ∉ s.toList) → (∀ s ∈ ys, '%' ∉ s.toList) →
      xs.map (fun s => (escapeSlashes s).toList) = ys.map (fun s => (escapeSlashes s).toList) →
        xs = ys
  | [], [], _, _, _ => rfl
  | [], _ :: _, _, _, h => by simp at h
  | _ :: _, [], _, _, h => by simp at h
  | x :: xs, y :: ys, hx, hy, h => by
    simp only [List.map_cons, List.cons.injEq] at h
    have hxy : x = y :=
      escapeSlashes_injective (hx x List.mem_cons_self) (hy y List.mem_cons_self)
        (String.toList_inj.mp h.1)
    rw [hxy, map_escapeSlashes_injective (fun s hs => hx s (List.mem_cons_of_mem _ hs))
      (fun s hs => hy s (List.mem_cons_of_mem _ hs)) h.2]

/-- A `/` and the text `%2F` escape alike. -/
theorem escapeSlashes_slash_percent (u v : String) :
    escapeSlashes (u ++ "/" ++ v) = escapeSlashes (u ++ "%2F" ++ v) := by
  apply String.toList_inj.mp
  simp [toList_escapeSlashes, escapeChar]

/-! ## Subjects -/

section Subject

variable {isPrint : Char → Bool} {yamlUnmarshal : String → Except String Value}

/-- A subject is the escaped components of its scope, joined by `/`. -/
theorem toList_generateSubject (g : TokenGenerator)
    (params : SecretLookupParams (List (String × Value))) :
    (g.generateSubject isPrint yamlUnmarshal params).toList =
      ['/'].intercalate ((g.subjectScope.components isPrint yamlUnmarshal params).map
        fun s => (escapeSlashes s).toList) := by
  cases h : g.subjectScope <;>
    simp [TokenGenerator.generateSubject, SubjectScope.components, h, List.intercalate]

/-- The components of a subject whose components hold no `%` are read back from it. -/
theorem components_eq_of_generateSubject_eq {g : TokenGenerator}
    {p p' : SecretLookupParams (List (String × Value))}
    (hp : ∀ s ∈ g.subjectScope.components isPrint yamlUnmarshal p, '%' ∉ s.toList)
    (hp' : ∀ s ∈ g.subjectScope.components isPrint yamlUnmarshal p', '%' ∉ s.toList)
    (h : g.generateSubject isPrint yamlUnmarshal p = g.generateSubject isPrint yamlUnmarshal p') :
    g.subjectScope.components isPrint yamlUnmarshal p =
      g.subjectScope.components isPrint yamlUnmarshal p' := by
  have hne : ∀ q, g.subjectScope.components isPrint yamlUnmarshal q ≠ [] := by
    intro q
    cases g.subjectScope <;> simp [SubjectScope.components]
  have hslash : ∀ q, ∀ l ∈ (g.subjectScope.components isPrint yamlUnmarshal q).map
      (fun s => (escapeSlashes s).toList), '/' ∉ l := by
    intro q l hl
    obtain ⟨s, -, rfl⟩ := List.mem_map.mp hl
    exact slash_not_mem_escapeSlashes s
  -- the escaped components are the pieces of the subject between its slashes
  have hsplit := congrArg (fun u => u.toList.splitOn '/') h
  simp only [toList_generateSubject] at hsplit
  rw [List.splitOn_intercalate _ (hslash p) (by simpa using hne p),
    List.splitOn_intercalate _ (hslash p') (by simpa using hne p')] at hsplit
  -- and the escape is undone on components free of `%`
  exact map_escapeSlashes_injective hp hp' hsplit

/-- Two lookups whose teams differ only in a `/` written out as `%2F` get one subject, whatever
the scope: the team is a component of every subject, and the two teams escape alike. -/
theorem generateSubject_team_slash_percent (g : TokenGenerator)
    (params : SecretLookupParams (List (String × Value))) (u v : String) :
    u ++ "/" ++ v ≠ u ++ "%2F" ++ v ∧
      g.generateSubject isPrint yamlUnmarshal { params with team := u ++ "/" ++ v } =
        g.generateSubject isPrint yamlUnmarshal { params with team := u ++ "%2F" ++ v } := by
  constructor
  · intro h
    have h' := congrArg String.toList h
    simp at h'
  · simp only [TokenGenerator.generateSubject, escapeSlashes_slash_percent]

end Subject

/-- The teams `a/b` and `a%2Fb` of one pipeline get one pipeline-scoped subject. -/
theorem generateSubject_team_slash_percent_pipeline :
    ({ subjectScope := .pipeline } : TokenGenerator).generateSubject (fun _ => true)
        Atc.plainScalarReader { team := "a/b", pipeline := "p", instanceVars := none, job := "j" } =
      ({ subjectScope := .pipeline } : TokenGenerator).generateSubject (fun _ => true)
        Atc.plainScalarReader { team := "a%2Fb", pipeline := "p", instanceVars := none, job := "j" } := by
  have h := (@generateSubject_team_slash_percent (fun _ => true) Atc.plainScalarReader
    { subjectScope := .pipeline }
    { team := "", pipeline := "p", instanceVars := none, job := "j" } "a" "b").2
  simpa using h

end Creds
end Concourse
