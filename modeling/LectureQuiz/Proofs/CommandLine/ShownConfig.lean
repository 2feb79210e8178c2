import LectureQuiz.Proofs.CommandLine.Stages
import LectureQuiz.Proofs.Config.RoundTrip
import LectureQuiz.Proofs.Text.Encoding

namespace LectureQuiz

open LectureQuiz.Text
open Toml

namespace Config

/-- A file with the text of an accepted configuration is loaded as that configuration. -/
theorem runOn_load_render
    {config : Config} (narrow : config.IsNarrow) (accepted : config.check = .ok ())
    {trailer : String} (blank : IsDocument trailer.toList []) {path : Path} {files : FileTree}
    (saved : files.read path = .ok (config.render ++ trailer).toUTF8) :
    (load path).runOn files = (.ok config, ⟨files, []⟩) := by
  have isText : text? (config.render ++ trailer).toUTF8 = some (config.render ++ trailer) :=
    text?_toUTF8 _
  exact Job.yields_iff_runOn.1 <| yields_load.2
    ⟨⟨_, _, saved, isText, parse?_render narrow blank, accepted⟩, rfl⟩

end Config

namespace CommandLine

/-- A configuration that was loaded has bounds and rules that the stages accept. Showing
it prints its text, and this text is loaded as the same configuration wherever it is saved,
with the line feed that is printed behind it or without. -/
theorem shown_config_loads
    {home : Path} {given : Option Path} {files : FileTree} {config : Config} {session : Session}
    (loads : (Config.load (configFile home given)).runOn files = (.ok config, session)) :
    checkBounds config.bounds = .ok () ∧ (∃ rules, config.ruleSet = .ok rules) ∧
      ((Invocation.mk given .showConfig).run home).runOn files =
        (.ok [.text config.render], ⟨files, []⟩) ∧
      ∀ text ∈ [config.render, config.render ++ "\n"], ∀ (path : Path) (saved : FileTree),
        saved.read path = .ok text.toUTF8 →
          (Config.load path).runOn saved = (.ok config, ⟨saved, []⟩) := by
  have yields : (Config.load (configFile home given)).Yields ⟨files, []⟩ config session := loads
  obtain ⟨⟨content, text, _, _, parsed, accepted⟩, rfl⟩ := Config.yields_load.1 yields
  have narrow := Config.isNarrow_parse? parsed
  have nothing : IsDocument "".toList [] := .done
  have lineFeed : IsDocument "\n".toList [] := .blank .done
  refine ⟨(Config.check_eq_ok_iff.1 accepted).1, Config.exists_ruleSet_of_check accepted,
    runOn_invocation yields .showConfig, ?_⟩
  intro text member path saved isSaved
  rcases List.mem_pair.1 member with rfl | rfl
  · refine Config.runOn_load_render narrow accepted nothing ?_
    rw [isSaved, String.append_empty]
  · exact Config.runOn_load_render narrow accepted lineFeed isSaved

/-- A configuration file that gives one bound and a rule, in forms that are not those in
which they are written. -/
def partialFile : FileTree :=
  FileTree.empty.put ["qbank.toml"] (.file (
    "segmenter.max_len = 1_200\n" ++
    "[[rules]]\n" ++
    "tag = 'sign'\n" ++
    "module = 6\n" ++
    "keywords = ['\"spread\"']\n" ++
    "question = 'Which?'\n" ++
    "answer = \x7b type = 'tf', answer = true \x7d\n").toUTF8)

/-- The configuration in that file. -/
def partialConfig : Config where
  bounds := { maxLength := 1200 }
  rules := [⟨6, "sign", ["\"spread\""], "Which?", .trueFalse true, "", []⟩]

theorem shown_config_loads_of_partialFile :
    let given : Option Path := some ⟨"qbank.toml"⟩
    ((Config.load (configFile ⟨"home"⟩ given)).runOn partialFile).1.toOption =
        some partialConfig ∧
      checkBounds partialConfig.bounds = .ok () ∧
      (∃ rules, partialConfig.ruleSet = .ok rules) ∧
      ((Invocation.mk given .showConfig).run ⟨"home"⟩).runOn partialFile =
        (.ok [.text partialConfig.render], ⟨partialFile, []⟩) ∧
      ∀ text ∈ [partialConfig.render, partialConfig.render ++ "\n"],
        ∀ (path : Path) (saved : FileTree), saved.read path = .ok text.toUTF8 →
          (Config.load path).runOn saved = (.ok partialConfig, ⟨saved, []⟩) := by
  intro given
  have isConfig : ((Config.load (configFile ⟨"home"⟩ given)).runOn partialFile).1.toOption =
      some partialConfig := by
    decide +kernel
  exact ⟨isConfig, shown_config_loads (Job.runOn_of_toOption isConfig)⟩

end CommandLine

end LectureQuiz
