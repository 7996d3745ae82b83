import Mandala.Core.ShellWords
import Mandala.Deploy.Data

/-!
# The options of ssh, for ssh and for Nix

The direct ssh commands get the options as arguments, `nix copy` as one line of
shell words in its environment.
-/

namespace Mandala.Deploy

open Mandala.ShellWords

/-- The characters left bare mean nothing to a shell. -/
theorem isPlain_of_bare {character : Char}
    (hbare : character.isAlphanum ||
      character ∈ ['_', '-', '.', '/', ':', '=', '@']) : isPlain character := by
  have hmarks : [' ', '\t', '\\', '\'', '"', '|', '&', ';', '<', '>', '(', ')',
      '$', '`', '\n', '*', '?', '[', '#', '~'].any (fun mark =>
        mark.isAlphanum || mark ∈ ['_', '-', '.', '/', ':', '=', '@']) = false := by
    decide
  by_contra hplain
  refine List.any_eq_false.mp hmarks character ?_ hbare
  simp only [isPlain, isBlank, isSpecial, List.mem_cons, List.not_mem_nil] at hplain ⊢
  grind

/-- Every argument, bare or quoted, is one word of a shell. -/
theorem spells_shellWord (value : String) :
    Spells (shellWord value).toList value.toList := by
  unfold shellWord
  simp only
  split
  · next hbare =>
      refine spells_plain (by simpa using hbare.1) fun character hmem => ?_
      exact isPlain_of_bare (List.all_eq_true.mp hbare.2 character hmem)
  · have hquote : "'\"'\"'".toList = ['\'', '"', '\'', '"', '\''] := rfl
    have hsingle : "'".toList = ['\''] := rfl
    rw [String.toList_append, String.toList_append, hquote, hsingle,
      String.toList_ofList, List.append_assoc, List.singleton_append]
    exact spells_quoted value.toList

/-- A shell takes the options for Nix apart into the arguments of ssh. -/
theorem shellWords_nixSshOpts (data : DeployData) :
    shellWords data.nixSshOpts = some data.sshArgs := by
  have hline : data.nixSshOpts.toList =
      [' '].intercalate (data.sshArgs.map fun value => (shellWord value).toList) := by
    have hblank : " ".toList = [' '] := rfl
    simp only [DeployData.nixSshOpts, String.toList_intercalate, List.map_map,
      hblank, Function.comp_def]
  rw [shellWords, hline, words_of_spells _ _ spells_shellWord, Option.map_some,
    List.map_map]
  congr 1
  exact List.map_id'' (fun value => String.ofList_toList) _

end Mandala.Deploy
