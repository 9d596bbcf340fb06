import Gherkin.Dialect.Basic

/-! # Languages

The dialects that are built in, by language code, and the look-up with its fallback to English. -/

namespace Gherkin

namespace Dialect

/-- The keywords of English. -/
def english : Dialect where
  feature := ["Feature"]
  rule := ["Rule"]
  scenario := ["Scenario", "Example"]
  outline := ["Scenario Outline", "Scenario Template"]
  background := ["Background"]
  examples := ["Examples", "Scenarios"]
  context := ["Given"]
  action := ["When"]
  outcome := ["Then"]
  addition := ["And"]
  contrast := ["But"]

/-- The keywords of French. -/
def french : Dialect where
  feature := ["Fonctionnalité"]
  rule := ["Règle"]
  scenario := ["Scénario", "Exemple"]
  outline := ["Plan du Scénario", "Plan du scénario"]
  background := ["Contexte"]
  examples := ["Exemples"]
  context := ["Soit", "Etant donné", "Étant donné", "Etant donnée", "Étant donnée"]
  action := ["Quand", "Lorsque", "Lorsqu'"]
  outcome := ["Alors"]
  addition := ["Et"]
  contrast := ["Mais"]

/-- The keywords of German. -/
def german : Dialect where
  feature := ["Funktionalität", "Funktion"]
  rule := ["Regel"]
  scenario := ["Szenario", "Beispiel"]
  outline := ["Szenariovorlage", "Szenarien"]
  background := ["Grundlage", "Hintergrund"]
  examples := ["Beispiele"]
  context := ["Angenommen", "Gegeben sei", "Gegeben seien"]
  action := ["Wenn"]
  outcome := ["Dann"]
  addition := ["Und"]
  contrast := ["Aber"]

/-- The keywords of Spanish. -/
def spanish : Dialect where
  feature := ["Característica"]
  rule := ["Regla"]
  scenario := ["Escenario", "Ejemplo"]
  outline := ["Esquema del escenario"]
  background := ["Antecedentes"]
  examples := ["Ejemplos"]
  context := ["Dado", "Dada", "Dados", "Dadas"]
  action := ["Cuando"]
  outcome := ["Entonces"]
  addition := ["Y"]
  contrast := ["Pero"]

/-- The keywords of Portuguese. -/
def portuguese : Dialect where
  feature := ["Funcionalidade", "Característica"]
  rule := ["Regra"]
  scenario := ["Cenário", "Cenario", "Exemplo"]
  outline := ["Esquema do Cenário", "Esquema do Cenario"]
  background := ["Contexto", "Cenário de Fundo", "Cenario de Fundo"]
  examples := ["Exemplos"]
  context := ["Dado", "Dada", "Dados", "Dadas"]
  action := ["Quando"]
  outcome := ["Então", "Entao"]
  addition := ["E"]
  contrast := ["Mas"]

/-- The keywords of Italian. -/
def italian : Dialect where
  feature := ["Funzionalità"]
  rule := ["Regola"]
  scenario := ["Scenario", "Esempio"]
  outline := ["Schema dello scenario"]
  background := ["Contesto"]
  examples := ["Esempi"]
  context := ["Dato", "Data", "Dati", "Date"]
  action := ["Quando"]
  outcome := ["Allora"]
  addition := ["E"]
  contrast := ["Ma"]

/-- The keywords of Dutch. -/
def dutch : Dialect where
  feature := ["Functionaliteit"]
  rule := ["Regel"]
  scenario := ["Scenario", "Voorbeeld"]
  outline := ["Abstract Scenario"]
  background := ["Achtergrond"]
  examples := ["Voorbeelden"]
  context := ["Gegeven", "Stel"]
  action := ["Als", "Wanneer"]
  outcome := ["Dan"]
  addition := ["En"]
  contrast := ["Maar"]

/-- The keywords of Russian. -/
def russian : Dialect where
  feature := ["Функция", "Функциональность", "Функционал", "Свойство"]
  rule := ["Правило"]
  scenario := ["Сценарий", "Пример"]
  outline := ["Структура сценария"]
  background := ["Предыстория", "Контекст"]
  examples := ["Примеры"]
  context := ["Допустим", "Пусть"]
  action := ["Когда", "Если"]
  outcome := ["Тогда", "То"]
  addition := ["И", "К тому же"]
  contrast := ["Но", "А"]

/-- The keywords of Japanese. -/
def japanese : Dialect where
  feature := ["フィーチャ", "機能"]
  rule := ["ルール"]
  scenario := ["シナリオ"]
  outline := ["シナリオアウトライン", "シナリオテンプレ", "シナリオテンプレート"]
  background := ["背景"]
  examples := ["例", "サンプル"]
  context := ["前提"]
  action := ["もし"]
  outcome := ["ならば"]
  addition := ["かつ"]
  contrast := ["しかし", "ただし"]

/-- The keywords of Chinese. -/
def chinese : Dialect where
  feature := ["功能"]
  rule := ["规则"]
  scenario := ["场景", "剧本"]
  outline := ["场景大纲", "剧本大纲"]
  background := ["背景"]
  examples := ["例子"]
  context := ["假如", "假设", "假定"]
  action := ["当"]
  outcome := ["那么"]
  addition := ["而且", "并且", "同时"]
  contrast := ["但是"]

/-- The keywords of Korean. -/
def korean : Dialect where
  feature := ["기능"]
  rule := ["규칙"]
  scenario := ["시나리오"]
  outline := ["시나리오 개요"]
  background := ["배경"]
  examples := ["예"]
  context := ["조건", "먼저"]
  action := ["만일", "만약"]
  outcome := ["그러면"]
  addition := ["그리고"]
  contrast := ["하지만", "단"]

/-- The keywords of Hindi. -/
def hindi : Dialect where
  feature := ["रूप लेख"]
  rule := ["नियम"]
  scenario := ["परिदृश्य"]
  outline := ["परिदृश्य रूपरेखा"]
  background := ["पृष्ठभूमि"]
  examples := ["उदाहरण"]
  context := ["अगर", "यदि", "चूंकि"]
  action := ["जब"]
  outcome := ["तब", "तो"]
  addition := ["और", "तथा"]
  contrast := ["पर", "परन्तु", "किन्तु"]

/-- The keywords of Arabic. -/
def arabic : Dialect where
  feature := ["خاصية"]
  rule := ["قاعدة"]
  scenario := ["سيناريو"]
  outline := ["مخطط السيناريو"]
  background := ["الخلفية"]
  examples := ["أمثلة"]
  context := ["بفرض"]
  action := ["متى", "عندما"]
  outcome := ["اذاً", "ثم"]
  addition := ["و"]
  contrast := ["لكن"]

end Dialect

/-- Dialects by language code, in the order in which the codes were first registered. -/
abbrev Languages := List (Text × Dialect)

namespace Languages

/-- The languages that are built in. -/
def builtIn : Languages := [
  ("en", .english),
  ("fr", .french),
  ("de", .german),
  ("es", .spanish),
  ("pt", .portuguese),
  ("it", .italian),
  ("nl", .dutch),
  ("ru", .russian),
  ("ja", .japanese),
  ("zh", .chinese),
  ("ko", .korean),
  ("hi", .hindi),
  ("ar", .arabic)]

/-- The code of the language that documents are written in unless they say otherwise. -/
def defaultCode : Text := "en"

/-- Adds a dialect, or replaces the one of the same code in its place. -/
def register (code : Text) (dialect : Dialect) : Languages → Languages
  | [] => [(code, dialect)]
  | (c, d) :: rest => if c = code then (c, dialect) :: rest else (c, d) :: register code dialect rest

/-- The dialect of a language code. -/
def find? (languages : Languages) (code : Text) : Option Dialect := languages.lookup code

/-- The codes, in order. -/
def codes (languages : Languages) : List Text := languages.map Prod.fst

end Languages

end Gherkin
