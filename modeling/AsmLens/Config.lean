import AsmLens.Json.Basic
import AsmLens.Table

/-!
# Configuration

The settings of the user, read key by key over built-in values. A setting whose value is not of the
kind of the built-in one does not count.
-/

namespace AsmLens

/-- The settings of the user: any value under each key. -/
abbrev Settings := Table String Json

/-- The questions shown above prompts. -/
structure PromptTexts where
  language : String
  compiler : String
  arguments : String
  formatter : String
  style : String

/-- The templates for the labels of choices. -/
structure LabelTemplates where
  language : String
  compiler : String
  formatter : String
  style : String

/-- The configuration that a command works with. -/
structure Config where
  url : String
  /-- How long a request may take, in milliseconds. -/
  timeout : Number
  prompts : PromptTexts
  labels : LabelTemplates
  /-- Whether a compiled document is linked to its source. -/
  liveCorrelation : Bool
  /-- The theme color behind linked lines. -/
  highlightStyle : String

namespace Config

def publicUrl : String := "https://godbolt.org"

/-- The configuration without any setting. -/
def builtin : Config where
  url := publicUrl
  timeout := 30000
  prompts := ⟨"Select language> ", "Select compiler> ", "Select compiler options> ",
    "Select formatter> ", "Select formatter style> "⟩
  labels := ⟨"$\x7bname\x7d", "$\x7bname\x7d", "$\x7bname\x7d", "$\x7bvalue\x7d"⟩
  liveCorrelation := true
  highlightStyle := "editor.rangeHighlightBackground"

def readString (settings : Settings) (key fallback : String) : String :=
  ((settings.get? key).bind Json.string?).getD fallback

def readNumber (settings : Settings) (key : String) (fallback : Number) : Number :=
  ((settings.get? key).bind Json.number?).getD fallback

def readBool (settings : Settings) (key : String) (fallback : Bool) : Bool :=
  match settings.get? key with
  | some (.bool b) => b
  | _ => fallback

def ofSettings (settings : Settings) : Config where
  url := readString settings "url" builtin.url
  timeout := readNumber settings "requestTimeoutMs" builtin.timeout
  prompts := {
    language := readString settings "prompt.lang" builtin.prompts.language
    compiler := readString settings "prompt.compiler" builtin.prompts.compiler
    arguments := readString settings "prompt.compilerOpts" builtin.prompts.arguments
    formatter := readString settings "prompt.formatter" builtin.prompts.formatter
    style := readString settings "prompt.formatterStyle" builtin.prompts.style }
  labels := {
    language := readString settings "formatItem.lang" builtin.labels.language
    compiler := readString settings "formatItem.compiler" builtin.labels.compiler
    formatter := readString settings "formatItem.formatter" builtin.labels.formatter
    style := readString settings "formatItem.formatterStyle" builtin.labels.style }
  liveCorrelation := readBool settings "liveCorrelation.enable" builtin.liveCorrelation
  highlightStyle := readString settings "liveCorrelation.highlightStyle" builtin.highlightStyle

def withoutTrailingSlashes (s : String) : String :=
  String.ofList (s.toList.reverse.dropWhile (· = '/')).reverse

/-- The address under which the service is asked: the one the user set, else the one the environment
names, else the public one. -/
def baseUrl (config : Config) (environment : Option String) : String :=
  let named := environment.getD ""
  withoutTrailingSlashes <|
    if config.url ≠ "" ∧ config.url ≠ publicUrl then config.url
    else if named ≠ "" then named
    else publicUrl

end Config

end AsmLens
