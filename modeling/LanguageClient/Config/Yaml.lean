import LanguageClient.Config.Source
import LanguageClient.Yaml.Decode

/-! # Configuration files in YAML.

The decoder that the program itself is run with. -/

namespace LanguageClient.Config

open Yaml

/-- A field that `read` gives a value and `put` stores. -/
def field {α β : Type} (name : String) (read : Scope → Node → Decoding β) (put : α → β → α) :
    FieldReader α :=
  ⟨name, fun scope n a => return put a (← read scope n)⟩

def LogSection.fields : List (FieldReader LogSection) :=
  [field "file" (Scope.single Scope.text) fun a v => { a with file := v },
    field "max_size_mb" (Scope.single Scope.integer) fun a v => { a with maxSizeMb := v },
    field "max_backups" (Scope.single Scope.integer) fun a v => { a with maxBackups := v },
    field "max_age_days" (Scope.single Scope.integer) fun a v => { a with maxAgeDays := v },
    field "compress" (Scope.single Scope.boolean) fun a v => { a with compress := v }]

def FileContent.fields (fuel : Nat) : List (FieldReader FileContent) :=
  [field "install_root" (Scope.single Scope.text) fun a v => { a with installRoot := v },
    field "base_name" (Scope.single Scope.text) fun a v => { a with baseName := v },
    field "language_id" (Scope.single Scope.text) fun a v => { a with languageId := v },
    field "extensions" Scope.texts fun a v => { a with extensions := v },
    field "release_base_url" (Scope.single Scope.text) fun a v => { a with releaseBaseUrl := v },
    field "manifest_path" (Scope.single Scope.text) fun a v => { a with manifestPath := v },
    field "version" (Scope.single Scope.text) fun a v => { a with version := v },
    field "download_timeout" (Scope.single Scope.text) fun a v => { a with downloadTimeout := v },
    field "start_timeout" (Scope.single Scope.text) fun a v => { a with startTimeout := v },
    field "stop_timeout" (Scope.single Scope.text) fun a v => { a with stopTimeout := v },
    field "debug" (Scope.single Scope.boolean) fun a v => { a with debug := v },
    field "log" (Scope.record true fuel LogSection.fields {}) fun a v => { a with log := v }]

def FileContent.ofYaml? : Decoder := decode? FileContent.fields {}

end LanguageClient.Config
