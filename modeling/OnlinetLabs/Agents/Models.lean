import OnlinetLabs.Chat.Reply
import OnlinetLabs.Lib.Interleaving
import OnlinetLabs.Lib.Runs
import Mathlib.Data.List.Basic

/-!
# The models that answer

The environment of a deployment gives the secrets of the providers, and with them which models of
the catalog there are. Learners prefer models and ask for them, and a session keeps the one that
answered in it, so that after another deployment what is stored may name a model there is no longer.
Every answer has to find a model all the same.
-/

namespace OnlinetLabs.Agents.Models

open Interleaving (mem_of_getElem? forall_mem_set forall_mem_append)

/-! ### The configuration -/

/-- The variables of the environment, which may have no value. -/
abbrev Values := List (String × Option String)

def Values.get (values : Values) (key : String) : Option String := (values.lookup key).join

def Values.getDefault (values : Values) (key default : String) : Option String :=
  (values.lookup key).getD (some default)

def truthy (value : Option String) : Option String := value.filter (· ≠ "")

inductive LlmProvider where
  | anthropic
  | openai
  | ollama
  | yandex
deriving Repr, DecidableEq

def LlmProvider.value : LlmProvider → String
  | anthropic => "anthropic"
  | openai => "openai"
  | ollama => "ollama"
  | yandex => "yandex"

def LlmProvider.ofValue (value : String) : Option LlmProvider :=
  [anthropic, openai, ollama, yandex].find? fun provider => provider.value = value

structure ProviderCreds where
  provider : LlmProvider
  baseUrl : Option String := none
  apiKey : Option String := none
  yandexFolder : Option String := none
  extraHeaders : List (String × String) := []
deriving Repr, DecidableEq

structure ModelEntry where
  id : String
  label : String
  providerRef : String
  model : String
  tools : Bool := true
deriving Repr, DecidableEq

structure AgentsConfig where
  providers : List (String × ProviderCreds)
  catalog : List ModelEntry
  chatModel : String
  interventionModel : String
  interventionsFollowSession : Bool := false
deriving Repr, DecidableEq

inductive ConfigError where
  | unknownProvider
  | noYandexFolder
  | noCreds
  | invalid
  | unknownProviderRef (id : String)
  | notInCatalog (id : String)
  | incompleteCreds (ref : String)
deriving Repr, DecidableEq

namespace AgentsConfig

def getEntry (cfg : AgentsConfig) (modelId : String) : Option ModelEntry :=
  cfg.catalog.find? fun entry => entry.id = modelId

end AgentsConfig

/-- Whether the provider has what it needs. That of Ollama gets its address where there is none. -/
def ProviderCreds.isComplete (creds : ProviderCreds) : Bool :=
  match creds.provider with
  | .anthropic | .openai => (truthy creds.apiKey).isSome
  | .yandex => (truthy creds.apiKey).isSome && (truthy creds.yandexFolder).isSome
  | .ollama => true

def ProviderCreds.withAddress (creds : ProviderCreds) : ProviderCreds :=
  if creds.provider = .ollama ∧ (truthy creds.baseUrl).isNone then
    { creds with baseUrl := some "http://localhost:11434/v1" }
  else creds

def validateRefs (cfg : AgentsConfig) : Except ConfigError AgentsConfig :=
  match cfg.catalog.find? fun entry => (cfg.providers.lookup entry.providerRef).isNone with
  | some entry => .error (.unknownProviderRef entry.id)
  | none =>
      match [cfg.chatModel, cfg.interventionModel].find? fun modelId =>
        (cfg.getEntry modelId).isNone with
      | some modelId => .error (.notInCatalog modelId)
      | none =>
          match cfg.providers.find? fun entry => ! entry.2.isComplete with
          | some entry => .error (.incompleteCreds entry.1)
          | none =>
              .ok { cfg with
                providers := cfg.providers.map fun entry => (entry.1, entry.2.withAddress) }

def defaultCatalog : List ModelEntry := [
  { id := "yandex-gpt-5.1"
    label := "YandexGPT 5.1 Pro"
    providerRef := "yandex"
    model := "yandexgpt/latest" },
  { id := "claude-opus-4.8", label := "Claude Opus 4.8", providerRef := "openrouter",
    model := "anthropic/claude-opus-4.8" },
  { id := "claude-sonnet-4.5", label := "Claude Sonnet 4.5", providerRef := "openrouter",
    model := "anthropic/claude-sonnet-4.5" },
  { id := "claude-haiku-4.5", label := "Claude Haiku 4.5", providerRef := "openrouter",
    model := "anthropic/claude-haiku-4.5" },
  { id := "gemini-2.5-flash", label := "Gemini 2.5 Flash", providerRef := "openrouter",
    model := "google/gemini-2.5-flash" },
  { id := "gpt-5-mini"
    label := "GPT-5 mini"
    providerRef := "openrouter"
    model := "openai/gpt-5-mini" },
  { id := "deepseek-v3.1", label := "DeepSeek V3.1", providerRef := "openrouter",
    model := "deepseek/deepseek-chat-v3.1" },
  { id := "qwen3-next-free", label := "Qwen3 Next (free)", providerRef := "openrouter",
    model := "qwen/qwen3-next-80b-a3b-instruct:free" },
  { id := "openrouter-free", label := "OpenRouter Free (auto)", providerRef := "openrouter",
    model := "openrouter/free" }]

/-- The one provider of before, which the environment names itself. -/
def legacyConfig (values : Values) (named : String) : Except ConfigError AgentsConfig :=
  match LlmProvider.ofValue named with
  | none => .error .unknownProvider
  | some provider =>
      if provider = .yandex ∧ (truthy (values.get "AGENTS_YANDEX_FOLDER")).isNone
        then .error .noYandexFolder
      else
        match values.getDefault "AGENTS_MODEL" "default",
          values.getDefault "AGENTS_MODEL" "yandexgpt/latest" with
        | some label, some model =>
            validateRefs
              { providers := [(provider.value,
                  { provider
                    baseUrl := truthy (values.get "AGENTS_BASE_URL")
                    apiKey := truthy (values.get "AGENTS_API_KEY")
                    yandexFolder := truthy (values.get "AGENTS_YANDEX_FOLDER") })]
                catalog := [{ id := "legacy-default", label, providerRef := provider.value, model }]
                chatModel := "legacy-default"
                interventionModel := "legacy-default" }
        | _, _ => .error .invalid

def envProviders (values : Values) : List (String × ProviderCreds) :=
  (match truthy (values.get "YANDEX_API_KEY") with
    | some apiKey =>
        [("yandex",
          { provider := .yandex
            apiKey := some apiKey
            yandexFolder := values.get "YANDEX_FOLDER"
            baseUrl := truthy (values.get "YANDEX_BASE_URL") })]
    | none => [])
    ++ match truthy (values.get "OPENROUTER_API_KEY") with
      | some apiKey =>
          [("openrouter",
            { provider := .openai
              apiKey := some apiKey
              baseUrl := some ((truthy (values.get "OPENROUTER_BASE_URL")).getD
                "https://openrouter.ai/api/v1")
              extraHeaders :=
                ((truthy (values.get "OPENROUTER_HTTP_REFERER")).map (("HTTP-Referer", ·))).toList
                  ++ ((truthy (values.get "OPENROUTER_TITLE")).map
                    (("X-OpenRouter-Title", ·))).toList })]
      | none => []

/-- The model that is named, or else the first one. -/
def fallback (catalog : List ModelEntry) (named : Option String) : Option String :=
  match catalog with
  | [] => named
  | first :: _ =>
      if named.any fun modelId => catalog.any (·.id = modelId) then named else some first.id

/-- `_str2bool`. The letters of its words are the lower case of no letter outside ASCII. -/
def str2bool (value : String) : Bool :=
  ["true".toList, "1".toList, "yes".toList].contains ((Console.strip value.toList).map Char.toLower)

/-- `build_agents_config`. Temperature, tokens and timeout are left out. -/
def buildAgentsConfig (values : Values) : Except ConfigError AgentsConfig :=
  match truthy (values.get "AGENTS_PROVIDER"), truthy (values.get "AGENTS_CHAT_MODEL") with
  | some named, none => legacyConfig values named
  | _, _ =>
      let providers := envProviders values
      if providers = [] then .error .noCreds
      else
        let catalog := defaultCatalog.filter fun entry =>
            (providers.lookup entry.providerRef).isSome
        match fallback catalog (values.getDefault "AGENTS_CHAT_MODEL" "yandex-gpt-5.1"),
            fallback catalog (values.getDefault "AGENTS_INTERVENTION_MODEL" "yandex-gpt-5.1"),
            values.getDefault "AGENTS_INTERVENTIONS_FOLLOW_SESSION" "false" with
        | some chatModel, some interventionModel, some follow =>
            validateRefs
              { providers
                catalog
                chatModel
                interventionModel
                interventionsFollowSession := str2bool follow }
        | _, _, _ => .error .invalid

/-! ### Clients -/

/-- `resolve_model`, where `none` is the error of a missing key. -/
def resolveModel (cfg : AgentsConfig) (modelId : String) : Option (ProviderCreds × ModelEntry) := do
  let entry ← cfg.getEntry modelId
  let creds ← cfg.providers.lookup entry.providerRef
  return (creds, entry)

structure Client where
  apiKey : String
  baseUrl : Option String
  headers : List (String × String)
deriving Repr, DecidableEq

def buildClient (cfg : AgentsConfig) (modelId : String) : Option Client := do
  let (creds, _) ← resolveModel cfg modelId
  let yandex := creds.provider = .yandex
  return {
    apiKey := (truthy creds.apiKey).getD "ollama"
    baseUrl := if yandex
      then some ((truthy creds.baseUrl).getD "https://ai.api.cloud.yandex.net/v1")
      else creds.baseUrl
    headers := creds.extraHeaders ++ if yandex
      then [("x-folder-id", creds.yandexFolder.getD "")] else [] }

def modelUri (cfg : AgentsConfig) (modelId : String) : Option String := do
  let (creds, entry) ← resolveModel cfg modelId
  return match creds.provider, truthy creds.yandexFolder with
    | .yandex, some folder => "gpt://" ++ folder ++ "/" ++ entry.model
    | _, _ => entry.model

def buildModel (cfg : AgentsConfig) (modelId : String) : Option (Client × String) := do
  let (creds, _) ← resolveModel cfg modelId
  if creds.provider = .yandex ∧ (truthy creds.yandexFolder).isNone then none
  let client ← buildClient cfg modelId
  let uri ← modelUri cfg modelId
  return (client, uri)

/-! ### Which model -/

def known (cfg : AgentsConfig) (modelId : Option String) : Option String :=
  (truthy modelId).filter fun id => (cfg.getEntry id).isSome

def resolveChatModel (cfg : AgentsConfig) (requested sessionModelId : Option String)
    (canSelect : Bool)
    (userDefaultModelId : Option String) : String :=
  ((if canSelect then (known cfg requested).or (known cfg userDefaultModelId) else none).or
    (known cfg sessionModelId)).getD cfg.chatModel

/-- `build_models_response`: the default model that is reported, and those that are offered. -/
def buildModelsResponse (cfg : AgentsConfig) (canSelect : Bool)
    (userDefaultModelId : Option String) :
    String × List ModelEntry :=
  ((if canSelect then known cfg userDefaultModelId else none).getD cfg.chatModel,
    if canSelect then cfg.catalog.filter (·.tools) else [])

def resolveInterventionModel (cfg : AgentsConfig) (sessionModelId : Option String) : String :=
  (if cfg.interventionsFollowSession then known cfg sessionModelId else none).getD
    cfg.interventionModel

/-! ### The platform -/

inductive ChatPc where
  | started
  | resolved (modelId : String)
  | answering (modelId : String) (client : Client) (uri : String)
  | raised
deriving Repr, DecidableEq

/-- `stream_reply`, with what it has read before its generator starts. -/
structure Chat where
  session : Nat
  requested : Option String
  canSelect : Bool
  userDefaultModelId : Option String
  sessionModelId : Option String
  pc : ChatPc
deriving Repr, DecidableEq

inductive Agent where
  | hint
  | tutor
deriving Repr, DecidableEq

/-- `INTENT_TO_AGENT`, of the interventions. -/
def resolveAgent (interventionType : String) : Option Agent :=
  match interventionType with
  | "hint" => some .hint
  | "tutor" => some .tutor
  | _ => none

/-- The answer of `intervene`. -/
inductive Intervention where
  | noRoute (interventionType : String)
  | noContext
  | noModel
  | failed (agent : Agent)
  | answered (agent : Agent) (modelId : String) (uri : String)
deriving Repr, DecidableEq

/-- `intervene`, where the provider may fail. -/
def intervene (cfg : AgentsConfig) (singleAgentMode : Bool) (interventionType : String)
    (hasContext : Bool)
    (sessionModelId : Option String) (answers : Bool) : Intervention :=
  match resolveAgent (if singleAgentMode then "tutor" else interventionType) with
  | none => .noRoute interventionType
  | some agent =>
      if agent = .hint ∧ ! hasContext then .noContext
      else
        let modelId := resolveInterventionModel cfg sessionModelId
        match buildModel cfg modelId with
        | none => .noModel
        | some (_, uri) => if answers then .answered agent modelId uri else .failed agent

/-- The running process has a configuration, and its chats. The database keeps the rest. -/
structure World where
  config : Option AgentsConfig := none
  chats : List Chat := []
  interventions : List Intervention := []
  defaultModelId : Nat → Option String := fun _ => none
  sessionModelId : Nat → Option String := fun _ => none
  /-- Every configuration that a process has run with. -/
  deployed : List AgentsConfig := []

inductive Move where
  | deploy (values : Values)
  | setDefaultModel (user : Nat) (modelId : Option String) (canSelect : Bool)
  | streamReply (user session : Nat) (requested : Option String) (canSelect : Bool)
  | go (chat : Nat)
  | intervene (singleAgentMode : Bool) (interventionType : String) (hasContext : Bool)
      (sessionModelId : Option String)
      (answers : Bool)

def Chat.model (chat : Chat) (cfg : AgentsConfig) : String :=
  resolveChatModel cfg chat.requested chat.sessionModelId chat.canSelect chat.userDefaultModelId

namespace World

/-- `set_default_model`, where what raises changes nothing. -/
def setDefaultModel (w : World) (cfg : AgentsConfig) (user : Nat) (modelId : Option String)
    (canSelect : Bool) :
    World :=
  if modelId.all fun id => canSelect && (cfg.getEntry id).isSome then
    { w with defaultModelId := fun u => if u = user then modelId else w.defaultModelId u }
  else w

/-- The next step of a generator: the model, which the session keeps, and then the client. -/
def go (w : World) (cfg : AgentsConfig) (i : Nat) (chat : Chat) : Option World :=
  match chat.pc with
  | .started =>
      let modelId := chat.model cfg
      some { w with
        chats := w.chats.set i { chat with pc := .resolved modelId }
        sessionModelId := fun s =>
          if s = chat.session ∧ chat.sessionModelId ≠ some modelId then some modelId
          else w.sessionModelId s }
  | .resolved modelId =>
      some { w with
        chats := w.chats.set i { chat with
          pc := match buildClient cfg modelId, modelUri cfg modelId with
            | some client, some uri => .answering modelId client uri
            | _, _ => .raised } }
  | .answering _ _ _ | .raised => none

/-- A deployment ends the process before it, and one whose configuration is refused does not come
up. -/
def step (w : World) : Move → Option World
  | .deploy values =>
      match buildAgentsConfig values with
      | .ok cfg => some { w with config := some cfg, chats := [], deployed := w.deployed ++ [cfg] }
      | .error _ => some { w with config := none, chats := [] }
  | .setDefaultModel user modelId canSelect =>
      w.config.map fun cfg => w.setDefaultModel cfg user modelId canSelect
  | .streamReply user session requested canSelect =>
      w.config.map fun _ =>
        { w with
          chats := w.chats
            ++ [⟨session, requested, canSelect, w.defaultModelId user, w.sessionModelId session,
              .started⟩] }
  | .go i =>
      match w.config, w.chats[i]? with
      | some cfg, some chat => w.go cfg i chat
      | _, _ => none
  | .intervene singleAgentMode interventionType hasContext sessionModelId answers =>
      w.config.map fun cfg =>
        { w with
          interventions := w.interventions
            ++ [Models.intervene cfg singleAgentMode interventionType hasContext
              sessionModelId answers] }

end World

/-! ### What a configuration has -/

def ProviderCreds.Usable (creds : ProviderCreds) : Prop :=
  creds.isComplete ∧ (creds.provider = .ollama → (truthy creds.baseUrl).isSome)

/-- What every configuration has that was accepted. -/
structure AgentsConfig.Valid (cfg : AgentsConfig) : Prop where
  ids : ∀ entry ∈ cfg.catalog, entry.id ≠ ""
  creds : ∀ entry ∈ cfg.catalog, ∃ creds, cfg.providers.lookup entry.providerRef = some creds
    ∧ creds.Usable
  chatModel : (cfg.getEntry cfg.chatModel).isSome
  interventionModel : (cfg.getEntry cfg.interventionModel).isSome

theorem ProviderCreds.usable_withAddress {creds : ProviderCreds} (h : creds.isComplete) :
    creds.withAddress.Usable := by
  unfold withAddress
  split
  · rename_i haddress
    refine ⟨?_, fun _ => rfl⟩
    unfold isComplete
    rw [haddress.1]
  · rename_i haddress
    refine ⟨h, fun hollama => ?_⟩
    rw [not_and, Bool.not_eq_true, Option.isNone_eq_false_iff] at haddress
    exact haddress hollama

theorem lookup_map_withAddress (providers : List (String × ProviderCreds)) (ref : String) :
    (providers.map fun entry => (entry.1, entry.2.withAddress)).lookup ref
      = (providers.lookup ref).map ProviderCreds.withAddress := by
  induction providers with
  | nil => rfl
  | cons entry providers ih =>
      rw [List.map_cons, List.lookup_cons, List.lookup_cons, ih]
      split <;> rfl

theorem validateRefs_valid {cfg cfg' : AgentsConfig} (h : validateRefs cfg = .ok cfg')
    (hids : ∀ entry ∈ cfg.catalog, entry.id ≠ "") : cfg'.Valid := by
  unfold validateRefs at h
  split at h
  · cases h
  · rename_i hrefs
    split at h
    · cases h
    · rename_i hnamed
      split at h
      · cases h
      · rename_i hcomplete
        cases h
        rw [List.find?_eq_none] at hrefs hnamed hcomplete
        have hentry : ∀ modelId ∈ [cfg.chatModel, cfg.interventionModel],
            (cfg.getEntry modelId).isSome := by
          intro modelId hmem
          have hsome := hnamed modelId hmem
          rwa [Bool.not_eq_true, Option.isNone_eq_false_iff] at hsome
        refine ⟨hids, ?_, hentry _ List.mem_cons_self,
          hentry _ (List.mem_cons_of_mem _ List.mem_cons_self)⟩
        intro entry hmem
        have hsome := hrefs entry hmem
        rw [Bool.not_eq_true, Option.isNone_eq_false_iff, Option.isSome_iff_exists] at hsome
        obtain ⟨creds, hlookup⟩ := hsome
        refine ⟨creds.withAddress, ?_, ?_⟩
        · rw [lookup_map_withAddress, hlookup]
          rfl
        · apply ProviderCreds.usable_withAddress
          obtain ⟨before, after, heq, -⟩ := List.lookup_eq_some_iff.mp hlookup
          have hcreds : (entry.providerRef, creds) ∈ cfg.providers := by
            rw [heq]
            exact List.mem_append_right _ List.mem_cons_self
          simpa using hcomplete _ hcreds

theorem legacyConfig_valid {values : Values} {named : String} {cfg : AgentsConfig}
    (h : legacyConfig values named = .ok cfg) : cfg.Valid := by
  unfold legacyConfig at h
  split at h
  · cases h
  · split at h
    · cases h
    · split at h
      · apply validateRefs_valid h
        intro entry hentry
        rw [List.mem_singleton.mp hentry]
        exact (by decide : "legacy-default" ≠ "")
      · cases h

theorem defaultCatalog_ids : ∀ entry ∈ defaultCatalog, entry.id ≠ "" := by decide

/-- Whatever the environment, a configuration that is accepted is one whose models can be asked. -/
theorem buildAgentsConfig_valid {values : Values} {cfg : AgentsConfig}
    (h : buildAgentsConfig values = .ok cfg) :
    cfg.Valid := by
  unfold buildAgentsConfig at h
  split at h
  · exact legacyConfig_valid h
  · dsimp only at h
    split at h
    · cases h
    · split at h
      · apply validateRefs_valid h
        intro entry hentry
        dsimp only at hentry
        exact defaultCatalog_ids entry (List.mem_of_mem_filter hentry)
      · cases h

/-! ### Models that are known -/

section Known

variable {cfg : AgentsConfig} {modelId : String}

theorem known_eq_some {named : Option String} :
    known cfg named = some modelId ↔ named = some modelId ∧ modelId ≠ ""
      ∧ (cfg.getEntry modelId).isSome := by
  unfold known truthy
  rw [Option.filter_eq_some_iff, Option.filter_eq_some_iff, decide_eq_true_eq]
  tauto

/-- Whatever is stored or asked for, the model is one of the catalog. -/
theorem getEntry_resolveChatModel (h : cfg.Valid) (requested sessionModelId : Option String)
    (canSelect : Bool)
    (userDefaultModelId : Option String) :
    (cfg.getEntry
      (resolveChatModel cfg requested sessionModelId canSelect userDefaultModelId)).isSome := by
  unfold resolveChatModel
  cases hfound : (if canSelect then (known cfg requested).or (known cfg userDefaultModelId)
    else none).or
      (known cfg sessionModelId) with
  | none => exact h.chatModel
  | some found =>
      rw [Option.getD_some]
      have hknown : ∃ named, known cfg named = some found := by
        rcases Option.or_eq_some_iff.mp hfound with hchosen | ⟨-, hsession⟩
        · cases canSelect with
          | false => cases hchosen
          | true =>
              rcases Option.or_eq_some_iff.mp hchosen with hrequested | ⟨-, hdefault⟩
              · exact ⟨_, hrequested⟩
              · exact ⟨_, hdefault⟩
        · exact ⟨_, hsession⟩
      obtain ⟨named, hnamed⟩ := hknown
      exact (known_eq_some.mp hnamed).2.2

theorem getEntry_resolveInterventionModel (h : cfg.Valid) (sessionModelId : Option String) :
    (cfg.getEntry (resolveInterventionModel cfg sessionModelId)).isSome := by
  unfold resolveInterventionModel
  cases hfound : (if cfg.interventionsFollowSession then known cfg sessionModelId else none) with
  | none => exact h.interventionModel
  | some found =>
      rw [Option.getD_some]
      split at hfound
      · exact (known_eq_some.mp hfound).2.2
      · cases hfound

def AgentsConfig.forReply (cfg : AgentsConfig) : OnlinetLabs.Chat.AgentsConfig where
  catalog := cfg.catalog.map (·.id.toList)
  chatModel := cfg.chatModel.toList

theorem known_forReply (cfg : AgentsConfig) (modelId : Option String) :
    cfg.forReply.known (modelId.map String.toList) = (known cfg modelId).map String.toList := by
  cases modelId with
  | none => rfl
  | some id =>
      have hempty : (!id.toList.isEmpty) = decide (id ≠ "") := by
        rw [Bool.eq_iff_iff, Bool.not_eq_true', List.isEmpty_eq_false_iff, decide_eq_true_eq, ne_eq,
          String.toList_eq_nil_iff]
      have hlisted : decide (id.toList ∈ cfg.forReply.catalog) = (cfg.getEntry id).isSome := by
        unfold AgentsConfig.forReply AgentsConfig.getEntry
        rw [Bool.eq_iff_iff, decide_eq_true_eq, List.mem_map, List.find?_isSome]
        simp only [decide_eq_true_eq, String.toList_inj]
      unfold OnlinetLabs.Chat.AgentsConfig.known OnlinetLabs.Chat.present known truthy
      rw [Option.map_some, Option.filter_some, Option.filter_some, hempty]
      split
      · rw [Option.filter_some, Option.filter_some, hlisted, Option.map_if]
      · rfl

/-- A reply resolves the same model. -/
theorem resolveChatModel_forReply (cfg : AgentsConfig) (requested sessionModelId : Option String)
    (canSelect : Bool) (userDefaultModelId : Option String) :
    OnlinetLabs.Chat.resolveChatModel cfg.forReply (requested.map String.toList)
      (sessionModelId.map String.toList) canSelect (userDefaultModelId.map String.toList)
      = (resolveChatModel cfg requested sessionModelId canSelect userDefaultModelId).toList := by
  unfold OnlinetLabs.Chat.resolveChatModel resolveChatModel
  rw [known_forReply, known_forReply, known_forReply, ← Option.getD_map String.toList,
    Option.map_or]
  cases canSelect with
  | false => rfl
  | true => rw [if_pos rfl, if_pos rfl, Option.map_or]; rfl

/-- A model of the catalog resolves to credentials that can be used. -/
theorem resolveModel_of_getEntry (h : cfg.Valid) (hentry : (cfg.getEntry modelId).isSome) :
    ∃ creds entry, resolveModel cfg modelId = some (creds, entry) ∧ creds.Usable := by
  obtain ⟨entry, hfound⟩ := Option.isSome_iff_exists.mp hentry
  obtain ⟨creds, hlookup, husable⟩ := h.creds entry (List.mem_of_find?_eq_some hfound)
  refine ⟨creds, entry, ?_, husable⟩
  unfold resolveModel
  rw [hfound, Option.bind_eq_bind, Option.bind_some, hlookup]
  rfl

theorem buildClient_of_getEntry (h : cfg.Valid) (hentry : (cfg.getEntry modelId).isSome) :
    (∃ client, buildClient cfg modelId = some client) ∧ ∃ uri, modelUri cfg modelId = some uri := by
  obtain ⟨creds, entry, hresolve, -⟩ := resolveModel_of_getEntry h hentry
  unfold buildClient modelUri
  rw [hresolve]
  exact ⟨⟨_, rfl⟩, ⟨_, rfl⟩⟩

theorem buildModel_of_getEntry (h : cfg.Valid) (hentry : (cfg.getEntry modelId).isSome) :
    ∃ client uri, buildModel cfg modelId = some (client, uri) := by
  obtain ⟨creds, entry, hresolve, hcomplete, -⟩ := resolveModel_of_getEntry h hentry
  obtain ⟨⟨client, hclient⟩, ⟨uri, huri⟩⟩ := buildClient_of_getEntry h hentry
  refine ⟨client, uri, ?_⟩
  have hfolder : ¬ (creds.provider = .yandex ∧ (truthy creds.yandexFolder).isNone) := by
    rintro ⟨hyandex, hnone⟩
    unfold ProviderCreds.isComplete at hcomplete
    rw [hyandex] at hcomplete
    dsimp only at hcomplete
    rw [Option.isNone_iff_eq_none.mp hnone, Bool.and_eq_true] at hcomplete
    cases hcomplete.2
  unfold buildModel
  rw [hresolve, Option.bind_eq_bind, Option.bind_some]
  dsimp only
  rw [if_neg hfolder, hclient, huri]
  rfl

/-- What is offered is what answers. -/
theorem resolveChatModel_offered (h : cfg.Valid) {entry : ModelEntry} {canSelect : Bool}
    {userDefaultModelId : Option String}
    (hoffered : entry ∈ (buildModelsResponse cfg canSelect userDefaultModelId).2)
    (sessionModelId : Option String) :
    resolveChatModel cfg (some entry.id) sessionModelId canSelect userDefaultModelId
      = entry.id := by
  unfold buildModelsResponse at hoffered
  dsimp only at hoffered
  cases canSelect with
  | false => cases hoffered
  | true =>
      have hentry : entry ∈ cfg.catalog := List.mem_of_mem_filter hoffered
      have hsome : (cfg.getEntry entry.id).isSome :=
        List.find?_isSome.mpr ⟨entry, hentry, decide_eq_true rfl⟩
      have hknown : known cfg (some entry.id) = some entry.id :=
        known_eq_some.mpr ⟨rfl, h.ids entry hentry, hsome⟩
      unfold resolveChatModel
      rw [if_pos rfl, hknown]
      rfl

/-- What is reported is what answers where the session has no model yet. -/
theorem resolveChatModel_reported (cfg : AgentsConfig) (canSelect : Bool)
    (userDefaultModelId : Option String) :
    resolveChatModel cfg none none canSelect userDefaultModelId
      = (buildModelsResponse cfg canSelect userDefaultModelId).1 := by
  unfold resolveChatModel buildModelsResponse
  cases canSelect with
  | false => rfl
  | true => exact congrArg (Option.getD · cfg.chatModel) Option.or_none

end Known

/-! ### What every step preserves -/

def Listed (w : World) (modelId : String) :
    Prop := ∃ cfg ∈ w.deployed, (cfg.getEntry modelId).isSome

def ChatKept (cfg : AgentsConfig) (chat : Chat) : Prop :=
  match chat.pc with
  | .started => True
  | .resolved modelId => modelId = chat.model cfg
  | .answering modelId client uri =>
      modelId = chat.model cfg ∧ buildClient cfg modelId = some client
        ∧ modelUri cfg modelId = some uri
  | .raised => False

def InterventionKept (w : World) : Intervention → Prop
  | .noModel => False
  | .answered _ modelId _ => Listed w modelId
  | .noRoute _ | .noContext | .failed _ => True

structure Kept (w : World) : Prop where
  config : ∀ cfg, w.config = some cfg → cfg.Valid ∧ cfg ∈ w.deployed
  chats : ∀ cfg, w.config = some cfg → ∀ chat ∈ w.chats, ChatKept cfg chat
  interventions : ∀ intervention ∈ w.interventions, InterventionKept w intervention
  defaults : ∀ user modelId, w.defaultModelId user = some modelId → Listed w modelId
  sessions : ∀ session modelId, w.sessionModelId session = some modelId → Listed w modelId

variable {w w' : World}

theorem Listed.mono {modelId : String} (h : Listed w modelId)
    (hsub : ∀ cfg ∈ w.deployed, cfg ∈ w'.deployed) :
    Listed w' modelId := by
  obtain ⟨cfg, hcfg, hentry⟩ := h
  exact ⟨cfg, hsub cfg hcfg, hentry⟩

theorem InterventionKept.mono {intervention : Intervention} (h : InterventionKept w intervention)
    (hsub : ∀ cfg ∈ w.deployed, cfg ∈ w'.deployed) : InterventionKept w' intervention := by
  cases intervention with
  | answered agent modelId uri => exact Listed.mono h hsub
  | noModel => exact h
  | noRoute interventionType | noContext | failed agent => trivial

theorem Kept.deploy (h : Kept w) (cfg : Option AgentsConfig)
    (hvalid : ∀ c, cfg = some c → c.Valid) :
    Kept { w with config := cfg, chats := [], deployed := w.deployed ++ cfg.toList } := by
  have hsub : ∀ c ∈ w.deployed,
      c ∈ ({ w with config := cfg, chats := [], deployed := w.deployed ++ cfg.toList } :
        World).deployed :=
    fun _ => List.mem_append_left _
  refine ⟨?_, (fun _ _ _ hchat => nomatch hchat), ?_, ?_, ?_⟩
  · intro c hc
    exact ⟨hvalid c hc, List.mem_append_right _ (Option.mem_toList.mpr hc)⟩
  · exact fun intervention hmem => (h.interventions intervention hmem).mono hsub
  · exact fun user modelId heq => (h.defaults user modelId heq).mono hsub
  · exact fun session modelId heq => (h.sessions session modelId heq).mono hsub

theorem Kept.listed {cfg : AgentsConfig} {modelId : String} (h : Kept w)
    (hconfig : w.config = some cfg)
    (hentry : (cfg.getEntry modelId).isSome) : Listed w modelId :=
  ⟨cfg, (h.config cfg hconfig).2, hentry⟩

theorem Kept.setDefaultModel {cfg : AgentsConfig} {user : Nat} {modelId : Option String}
    {canSelect : Bool}
    (h : Kept w) (hconfig : w.config = some cfg) :
    Kept (w.setDefaultModel cfg user modelId canSelect) := by
  unfold World.setDefaultModel
  split
  · rename_i hall
    refine ⟨h.config, h.chats, h.interventions, ?_, h.sessions⟩
    intro user' id hid
    dsimp only at hid
    split at hid
    · rw [hid, Option.all_some, Bool.and_eq_true] at hall
      exact h.listed hconfig hall.2
    · exact h.defaults user' id hid
  · exact h

/-- The one thing a generator does to its chat, and to the session. -/
theorem Kept.go {cfg : AgentsConfig} {i : Nat} {chat : Chat} (h : Kept w)
    (hconfig : w.config = some cfg)
    (hchat : w.chats[i]? = some chat) (hgo : w.go cfg i chat = some w') : Kept w' := by
  have hkept := h.chats cfg hconfig chat (mem_of_getElem? hchat)
  have hset : ∀ {chat' : Chat}, ChatKept cfg chat' →
      ∀ c, w.config = some c → ∀ chat ∈ w.chats.set i chat', ChatKept c chat := by
    intro chat' hchat' c hc
    rw [hconfig] at hc
    cases hc
    exact forall_mem_set (h.chats cfg hconfig) hchat'
  have hentry : (cfg.getEntry (chat.model cfg)).isSome :=
    getEntry_resolveChatModel (h.config cfg hconfig).1 _ _ _ _
  unfold World.go at hgo
  split at hgo
  · cases hgo
    refine ⟨h.config, hset rfl, h.interventions, h.defaults, ?_⟩
    intro session modelId hmodel
    dsimp only at hmodel
    split at hmodel
    · cases hmodel
      exact h.listed hconfig hentry
    · exact h.sessions session modelId hmodel
  · rename_i modelId hpc
    cases hgo
    unfold ChatKept at hkept
    rw [hpc] at hkept
    dsimp only at hkept
    subst hkept
    obtain ⟨⟨client, hclient⟩, ⟨uri, huri⟩⟩ :=
      buildClient_of_getEntry (h.config cfg hconfig).1 hentry
    rw [hclient, huri]
    exact ⟨h.config, hset ⟨rfl, hclient, huri⟩, h.interventions, h.defaults, h.sessions⟩
  · cases hgo
  · cases hgo

theorem Kept.intervene {cfg : AgentsConfig} (h : Kept w) (hconfig : w.config = some cfg)
    (singleAgentMode : Bool)
    (interventionType : String) (hasContext : Bool) (sessionModelId : Option String)
    (answers : Bool) :
    InterventionKept w
      (Models.intervene cfg singleAgentMode interventionType hasContext sessionModelId
        answers) := by
  have hvalid := (h.config cfg hconfig).1
  have hentry := getEntry_resolveInterventionModel hvalid sessionModelId
  obtain ⟨client, uri, hmodel⟩ := buildModel_of_getEntry hvalid hentry
  unfold Models.intervene
  split
  · trivial
  · split
    · trivial
    · dsimp only
      rw [hmodel]
      dsimp only
      split
      · exact h.listed hconfig hentry
      · trivial

theorem Kept.step {move : Move} (h : Kept w) (hstep : w.step move = some w') : Kept w' := by
  cases move with
  | deploy values =>
      simp only [World.step] at hstep
      split at hstep
      · rename_i cfg hbuild
        cases hstep
        apply h.deploy (some cfg)
        rintro c ⟨⟩
        exact buildAgentsConfig_valid hbuild
      · cases hstep
        have hnone := h.deploy none fun c hc => nomatch hc
        rw [Option.toList_none, List.append_nil] at hnone
        exact hnone
  | setDefaultModel user modelId canSelect =>
      obtain ⟨cfg, hconfig, rfl⟩ := Option.map_eq_some_iff.mp hstep
      exact h.setDefaultModel hconfig
  | streamReply user session requested canSelect =>
      obtain ⟨cfg, hconfig, rfl⟩ := Option.map_eq_some_iff.mp hstep
      refine ⟨h.config, fun c hc => ?_, h.interventions, h.defaults, h.sessions⟩
      exact forall_mem_append (h.chats c hc) trivial
  | go i =>
      simp only [World.step] at hstep
      split at hstep
      · rename_i cfg chat hconfig hchat
        exact h.go hconfig hchat hstep
      · cases hstep
  | intervene singleAgentMode interventionType hasContext sessionModelId answers =>
      obtain ⟨cfg, hconfig, rfl⟩ := Option.map_eq_some_iff.mp hstep
      refine ⟨h.config, h.chats, ?_, h.defaults, h.sessions⟩
      exact forall_mem_append h.interventions (h.intervene hconfig _ _ _ _ _)

theorem Kept.init : Kept {} where
  config _ h := nomatch h
  chats _ h := nomatch h
  interventions _ h := nomatch h
  defaults _ _ h := nomatch h
  sessions _ _ h := nomatch h

/-! ### The result -/

/-- **Every answer has a model.** Whatever the environments of the deployments, and whatever is
preferred, asked for and stored under one and met by another: a process that runs has credentials
that can be used for each model of its catalog. No chat fails for its model, and the one it resolves
to is in the catalog; it is the model asked for where that was offered, and depends on nothing but
the session where the learner may not select. What is reported answers where the session has none.
An intervention comes to nothing only for want of a route, of its context or of the provider's
answer. What is stored was once in a catalog. -/
theorem always_answered :
    Runs.Always World.step {} fun w =>
      (∀ cfg, w.config = some cfg →
        (∀ entry ∈ cfg.catalog, ∃ creds, cfg.providers.lookup entry.providerRef = some creds
          ∧ creds.Usable)
          ∧ (∀ chat ∈ w.chats, (cfg.getEntry (chat.model cfg)).isSome ∧ ChatKept cfg chat
            ∧ (chat.canSelect = false →
              chat.model cfg = (known cfg chat.sessionModelId).getD cfg.chatModel))
          ∧ ∀ canSelect userDefaultModelId,
            (∀ entry ∈ (buildModelsResponse cfg canSelect userDefaultModelId).2, ∀ sessionModelId,
              resolveChatModel cfg (some entry.id) sessionModelId canSelect userDefaultModelId
                = entry.id)
              ∧ resolveChatModel cfg none none canSelect userDefaultModelId
                = (buildModelsResponse cfg canSelect userDefaultModelId).1)
        ∧ (∀ intervention ∈ w.interventions, InterventionKept w intervention)
        ∧ (∀ user modelId, w.defaultModelId user = some modelId → Listed w modelId)
        ∧ ∀ session modelId, w.sessionModelId session = some modelId → Listed w modelId := by
  refine Runs.always_of_invariant (I := Kept) (fun _ _ _ h hstep => h.step hstep) Kept.init
    fun w h => ?_
  refine ⟨fun cfg hconfig => ?_, h.interventions, h.defaults, h.sessions⟩
  have hvalid := (h.config cfg hconfig).1
  refine ⟨hvalid.creds, fun chat hchat => ?_, fun canSelect userDefaultModelId => ?_⟩
  · refine ⟨getEntry_resolveChatModel hvalid _ _ _ _, h.chats cfg hconfig chat hchat,
      fun hselect => ?_⟩
    unfold Chat.model resolveChatModel
    rw [hselect]
    rfl
  · exact ⟨fun entry hoffered sessionModelId => resolveChatModel_offered hvalid hoffered
      sessionModelId, resolveChatModel_reported cfg canSelect userDefaultModelId⟩

end OnlinetLabs.Agents.Models
