import Buzz.Library.RefCount
import Buzz.Nostr.Event

/-! The event topics of a pod and how many of its subscriptions want each of them. -/

namespace Buzz.Pubsub

open Nostr Library List

inductive EventTopic
  | channel (channelId : Uuid)
  | global
  deriving DecidableEq

structure EventTopicKey where
  communityId : CommunityId
  topic : EventTopic
  deriving DecidableEq

def topicForSubscription : Option Uuid → EventTopic
  | some channelId => .channel channelId
  | none => .global

def EventTopicKey.redisChannel (self : EventTopicKey) : String :=
  match self.topic with
  | .channel channelId =>
    "buzz:" ++ self.communityId.uuid.toString ++ ":channel:" ++ channelId.toString
  | .global => "buzz:" ++ self.communityId.uuid.toString ++ ":global"

theorem hexEncode_noHyphen (bytes : Bytes) : ∀ c ∈ hexEncode bytes, c ≠ '-' := by
  have digit : ∀ n < 16, hexDigit n ≠ '-' := by decide
  intro c member
  rcases mem_flatMap.mp member with ⟨byte, -, inside⟩
  have bound := byte.toNat_lt
  rcases mem_pair.mp inside with rfl | rfl
  · exact digit _ (by omega)
  · exact digit _ (by omega)

theorem uuid_digits (uuid : Uuid) :
    uuid.toString.toList.filter (· ≠ '-') = hexEncode uuid.val := by
  have digits (list : List Char) (sub : ∀ c ∈ list, c ∈ hexEncode uuid.val) :
      list.filter (· ≠ '-') = list := by
    rw [filter_eq_self]
    intro c member
    exact decide_eq_true (hexEncode_noHyphen uuid.val c (sub c member))
  have part {start count : ℕ} := digits (((hexEncode uuid.val).drop start).take count)
    fun c member => mem_of_mem_drop (mem_of_mem_take member)
  have first := digits ((hexEncode uuid.val).take 8) fun c => mem_of_mem_take
  have last := digits ((hexEncode uuid.val).drop 20) fun c => mem_of_mem_drop
  have join (start count : ℕ) : ((hexEncode uuid.val).drop start).take count ++
      (hexEncode uuid.val).drop (start + count) = (hexEncode uuid.val).drop start := by
    rw [← drop_drop, take_append_drop]
  simp only [Uuid.toString, String.toList_ofList, filter_append, append_assoc,
    cons_append, first, part, last, filter_cons_of_neg, ne_eq, not_true_eq_false,
    decide_false, Bool.false_eq_true, not_false_eq_true]
  rw [join 16 4, join 12 4, join 8 4, take_append_drop]

theorem uuid_toString_injective : Function.Injective Uuid.toString := by
  intro first second same
  apply Subtype.ext
  apply hexEncode_injective
  rw [← uuid_digits, ← uuid_digits, same]

theorem uuid_toString_length (uuid : Uuid) : uuid.toString.toList.length = 36 := by
  have length : (hexEncode uuid.val).length = 32 := by
    rw [hexEncode_length, uuid.property]
  simp [Uuid.toString, length]

theorem redisChannel_injective : Function.Injective EventTopicKey.redisChannel := by
  rintro ⟨⟨community⟩, topic⟩ ⟨⟨community'⟩, topic'⟩ same
  have lists := congrArg String.toList same
  have start : community.toString.toList.length = community'.toString.toList.length := by
    rw [uuid_toString_length, uuid_toString_length]
  cases topic with
  | global =>
    cases topic' with
    | global =>
      simp only [EventTopicKey.redisChannel, String.toList_append, append_assoc,
        append_cancel_left_eq] at lists
      rw [uuid_toString_injective (String.toList_inj.mp (append_inj_left lists start))]
    | channel channelId =>
      simp only [EventTopicKey.redisChannel, String.toList_append, append_assoc,
        append_cancel_left_eq] at lists
      exact absurd (append_inj_right lists start) (by simp)
  | channel channelId =>
    cases topic' with
    | global =>
      simp only [EventTopicKey.redisChannel, String.toList_append, append_assoc,
        append_cancel_left_eq] at lists
      exact absurd (append_inj_right lists start) (by simp)
    | channel channelId' =>
      simp only [EventTopicKey.redisChannel, String.toList_append, append_assoc,
        append_cancel_left_eq] at lists
      have channels := append_cancel_left (append_inj_right lists start)
      rw [uuid_toString_injective (String.toList_inj.mp (append_inj_left lists start)),
        uuid_toString_injective (String.toList_inj.mp channels)]

abbrev DesiredTopics := RefCount.Counts EventTopicKey

/-- The locked part of `retain_topic`; the flag asks the subscriber task to subscribe. -/
def retainTopic (desired : DesiredTopics) (topic : EventTopicKey) : DesiredTopics × Bool :=
  RefCount.retain desired topic

/-- The flag starts the delayed unsubscribe; an unretained topic is left alone. -/
def releaseTopic (desired : DesiredTopics) (topic : EventTopicKey) : DesiredTopics × Bool :=
  RefCount.release desired topic

def topicRefcount (desired : DesiredTopics) (topic : EventTopicKey) : ℕ :=
  RefCount.count desired topic

end Buzz.Pubsub
