import BuildLog.Text.Terminal

/-! Where messages go. A console leaves out what only a terminal understands. Which pieces of a
message these are beyond the common ones is its own matter. -/
namespace BuildLog

class Console where
  /-- What is left of a message. -/
  shown : Text → Text
  /-- Nothing is left out in front of the first escape. -/
  shown_append : ∀ text : Text, '\x1b' ∉ text → ∀ more, shown (text ++ more) = text ++ shown more
  shown_sequence : ∀ sequence : Text, Text.IsCommonSequence sequence →
    ∀ more, shown (sequence ++ more) = shown more
  /-- Nothing is put in or moved. -/
  shown_sublist : ∀ text : Text, (shown text).Sublist text

namespace Console

@[reducible] def stripping : Console where
  shown := Text.withoutSequences
  shown_append _ := Text.withoutSequences_append
  shown_sequence _ h := Text.withoutSequences_sequence_append h.isSequence
  shown_sublist := Text.withoutSequences_sublist

variable [Console] {text : Text}

theorem shown_of_not_mem (h : '\x1b' ∉ text) : shown text = text := by
  have hnil : shown [] = [] := List.sublist_nil.mp (shown_sublist [])
  have happend := shown_append text h []
  rwa [hnil, List.append_nil] at happend

theorem mem_of_mem_shown {c : Char} (h : c ∈ shown text) : c ∈ text := (shown_sublist text).subset h

end Console

def echo [Console] (message : Text) : Text := Console.shown message ++ ['\n']

theorem echo_append [Console] {text : Text} (h : '\x1b' ∉ text) (more : Text) :
    echo (text ++ more) = text ++ echo more := by
  unfold echo
  rw [Console.shown_append text h, List.append_assoc]

theorem echo_of_not_mem [Console] {text : Text} (h : '\x1b' ∉ text) :
    echo text = text ++ ['\n'] := by
  unfold echo
  rw [Console.shown_of_not_mem h]

end BuildLog
