/-!
# Templates of applications

The templates of application sources, line by line, and the partials that they include. The marks
⟦ and ⟧ stand for braces.
-/

namespace Stencil.Bundled

/-- The entry of the application. -/
def mainSource : List String :=
  ["⟦⟦!-- Entry point: mounts <App /> inside the providers selected for this project. --⟧⟧",
   "import ⟦ StrictMode ⟧ from 'react';",
   "import ⟦ createRoot ⟧ from 'react-dom/client';",
   "import App from './App';",
   "import './App.css';",
   "⟦⟦> imports/providers⟧⟧",
   "",
   "createRoot(document.getElementById('root')!).render(",
   "  <StrictMode>",
   "⟦⟦#if hasProviders⟧⟧",
   "⟦⟦> providers/open⟧⟧",
   "          <App />",
   "⟦⟦> providers/close⟧⟧",
   "⟦⟦else⟧⟧",
   "    <App />",
   "⟦⟦/if⟧⟧",
   "  </StrictMode>",
   ");",
   ""]

/-- The root component. -/
def appSource : List String :=
  ["⟦⟦!-- Root component. Each enabled feature adds a small demo card. --⟧⟧",
   "import ⟦ useState ⟧ from 'react';",
   "⟦⟦#if features.redux⟧⟧import ⟦ useDispatch, useSelector ⟧ from 'react-redux';",
   "import ⟦ selectTheme, toggleTheme ⟧ from './store/slices/appSlice';",
   "⟦⟦/if⟧⟧⟦⟦#if features.reactRouter⟧⟧import ⟦ Link, Route, Routes ⟧ from 'react-router-dom';",
   "⟦⟦/if⟧⟧⟦⟦#if features.i18n⟧⟧import ⟦ useTranslation ⟧ from 'react-i18next';",
   "⟦⟦/if⟧⟧",
   "",
   "function App() ⟦",
   "  const [count, setCount] = useState(0);",
   "⟦⟦#if features.redux⟧⟧",
   "  const theme = useSelector(selectTheme);",
   "  const dispatch = useDispatch();",
   "⟦⟦/if⟧⟧",
   "⟦⟦#if features.i18n⟧⟧",
   "  const ⟦ t, i18n ⟧ = useTranslation();",
   "⟦⟦/if⟧⟧",
   "",
   "  return (",
   "    <main⟦⟦#if features.tailwindcss⟧⟧ className=\"min-h-screen bg-gray-900 text-white flex flex-col items-center justify-center gap-6\"⟦⟦/if⟧⟧>",
   "      <h1⟦⟦#if features.tailwindcss⟧⟧ className=\"text-4xl font-bold\"⟦⟦/if⟧⟧>⟦⟦projectName⟧⟧</h1>",
   "⟦⟦#if description⟧⟧",
   "      <p>⟦⟦description⟧⟧</p>",
   "⟦⟦/if⟧⟧",
   "      <button onClick=⟦() => setCount((c) => c + 1)⟧>count is ⟦count⟧</button>",
   "⟦⟦#if features.redux⟧⟧",
   "      <button onClick=⟦() => dispatch(toggleTheme())⟧>theme: ⟦theme⟧</button>",
   "⟦⟦/if⟧⟧",
   "⟦⟦#if features.i18n⟧⟧",
   "      <p>⟦t('hero.subtitle')⟧</p>",
   "      <select value=⟦i18n.language⟧ onChange=⟦(e) => i18n.changeLanguage(e.target.value)⟧>",
   "        <option value=\"en\">English</option>",
   "        <option value=\"pt\">Português</option>",
   "        <option value=\"es\">Español</option>",
   "      </select>",
   "⟦⟦/if⟧⟧",
   "⟦⟦#if features.reactRouter⟧⟧",
   "      <nav>",
   "        <Link to=\"/\">Home</Link> | <Link to=\"/about\">About</Link>",
   "      </nav>",
   "      <Routes>",
   "        <Route path=\"/\" element=⟦<p>Home</p>⟧ />",
   "        <Route path=\"/about\" element=⟦<p>About</p>⟧ />",
   "      </Routes>",
   "⟦⟦/if⟧⟧",
   "⟦⟦#unless features.tailwindcss⟧⟧",
   "      <p className=\"read-the-docs\">Edit <code>src/App.tsx</code> and save to test HMR</p>",
   "⟦⟦/unless⟧⟧",
   "    </main>",
   "  );",
   "⟧",
   "",
   "export default App;",
   ""]

/-- The style of the root component. -/
def appStyle : List String :=
  ["⟦⟦#if features.tailwindcss⟧⟧",
   "@import 'tailwindcss';",
   "⟦⟦else⟧⟧",
   "#root ⟦",
   "  max-width: 1280px;",
   "  margin: 0 auto;",
   "  padding: 2rem;",
   "  text-align: center;",
   "⟧",
   "",
   ".read-the-docs ⟦",
   "  color: #888;",
   "⟧",
   "⟦⟦/if⟧⟧",
   ""]

/-- The settings of the build. -/
def buildSettings : List String :=
  ["import ⟦ defineConfig ⟧ from 'vite';",
   "import react from '@vitejs/plugin-react';",
   "⟦⟦#if features.tailwindcss⟧⟧import tailwindcss from '@tailwindcss/vite';",
   "⟦⟦/if⟧⟧",
   "",
   "export default defineConfig(⟦",
   "  plugins: [react()⟦⟦#if features.tailwindcss⟧⟧, tailwindcss()⟦⟦/if⟧⟧],",
   "⟧);",
   ""]

/-- The store of the application. -/
def storeSource : List String :=
  ["import ⟦ configureStore ⟧ from '@reduxjs/toolkit';",
   "import appReducer from './slices/appSlice';",
   "",
   "export const store = configureStore(⟦",
   "  reducer: ⟦",
   "    app: appReducer,",
   "  ⟧,",
   "⟧);",
   "",
   "export type RootState = ReturnType<typeof store.getState>;",
   "export type AppDispatch = typeof store.dispatch;",
   ""]

/-- A part of the store. -/
def sliceSource : List String :=
  ["import ⟦ createSlice, PayloadAction ⟧ from '@reduxjs/toolkit';",
   "import type ⟦ RootState ⟧ from '../store';",
   "",
   "interface AppState ⟦",
   "  theme: 'light' | 'dark';",
   "⟧",
   "",
   "const initialState: AppState = ⟦",
   "  theme: 'dark',",
   "⟧;",
   "",
   "export const appSlice = createSlice(⟦",
   "  name: 'app',",
   "  initialState,",
   "  reducers: ⟦",
   "    setTheme: (state, action: PayloadAction<'light' | 'dark'>) => ⟦",
   "      state.theme = action.payload;",
   "    ⟧,",
   "    toggleTheme: (state) => ⟦",
   "      state.theme = state.theme === 'dark' ? 'light' : 'dark';",
   "    ⟧,",
   "  ⟧,",
   "⟧);",
   "",
   "export const ⟦ setTheme, toggleTheme ⟧ = appSlice.actions;",
   "export const selectTheme = (state: RootState) => state.app.theme;",
   "export default appSlice.reducer;",
   ""]

/-- The settings of translation. -/
def translationSettings : List String :=
  ["import i18n from 'i18next';",
   "import ⟦ initReactI18next ⟧ from 'react-i18next';",
   "import LanguageDetector from 'i18next-browser-languagedetector';",
   "",
   "import en from './locales/en.json';",
   "import pt from './locales/pt.json';",
   "import es from './locales/es.json';",
   "",
   "i18n",
   "  .use(LanguageDetector)",
   "  .use(initReactI18next)",
   "  .init(⟦",
   "    resources: ⟦",
   "      en: ⟦ translation: en ⟧,",
   "      pt: ⟦ translation: pt ⟧,",
   "      es: ⟦ translation: es ⟧,",
   "    ⟧,",
   "    fallbackLng: 'en',",
   "    interpolation: ⟦",
   "      escapeValue: false,",
   "    ⟧,",
   "  ⟧);",
   "",
   "export default i18n;",
   ""]

/-- Texts in English. -/
def englishTexts : List String :=
  ["⟦",
   "  \"hero\": ⟦",
   "    \"title\": \"React + Vite Starter\",",
   "    \"subtitle\": \"A modern starting point for your React projects\"",
   "  ⟧,",
   "  \"common\": ⟦",
   "    \"increment\": \"Increment\",",
   "    \"home\": \"Home\",",
   "    \"about\": \"About\"",
   "  ⟧",
   "⟧",
   ""]

/-- Texts in Portuguese. -/
def portugueseTexts : List String :=
  ["⟦",
   "  \"hero\": ⟦",
   "    \"title\": \"React + Vite Starter\",",
   "    \"subtitle\": \"Um ponto de partida moderno para seus projetos React\"",
   "  ⟧,",
   "  \"common\": ⟦",
   "    \"increment\": \"Incrementar\",",
   "    \"home\": \"Início\",",
   "    \"about\": \"Sobre\"",
   "  ⟧",
   "⟧",
   ""]

/-- Texts in Spanish. -/
def spanishTexts : List String :=
  ["⟦",
   "  \"hero\": ⟦",
   "    \"title\": \"React + Vite Starter\",",
   "    \"subtitle\": \"Un punto de partida moderno para tus proyectos React\"",
   "  ⟧,",
   "  \"common\": ⟦",
   "    \"increment\": \"Incrementar\",",
   "    \"home\": \"Inicio\",",
   "    \"about\": \"Acerca\"",
   "  ⟧",
   "⟧",
   ""]

/-- What can be done with the project. -/
def guide : List String :=
  ["# ⟦⟦projectName⟧⟧",
   "",
   "⟦⟦#if description⟧⟧⟦⟦description⟧⟧",
   "",
   "⟦⟦/if⟧⟧## Getting started",
   "",
   "```bash",
   "⟦⟦packageManager⟧⟧ install",
   "⟦⟦packageManager⟧⟧ run dev",
   "```",
   "",
   "## Enabled features",
   "",
   "⟦⟦#with features⟧⟧",
   "⟦⟦#if typescript⟧⟧- TypeScript",
   "⟦⟦/if⟧⟧⟦⟦#if tailwindcss⟧⟧- Tailwind CSS",
   "⟦⟦/if⟧⟧⟦⟦#if redux⟧⟧- Redux Toolkit (`src/store`)",
   "⟦⟦/if⟧⟧⟦⟦#if reactRouter⟧⟧- React Router",
   "⟦⟦/if⟧⟧⟦⟦#if i18n⟧⟧- i18next with en, pt and es locales (`src/i18n`)",
   "⟦⟦/if⟧⟧⟦⟦#if eslint⟧⟧- ESLint (`⟦⟦packageManager⟧⟧ run lint`)",
   "⟦⟦/if⟧⟧⟦⟦#if prettier⟧⟧- Prettier",
   "⟦⟦/if⟧⟧⟦⟦#if testing⟧⟧- Vitest + Testing Library (profile: ⟦⟦testProfile⟧⟧)",
   "⟦⟦/if⟧⟧",
   "⟦⟦/with⟧⟧",
   "⟦⟦#if hasProviders⟧⟧",
   "## Provider order",
   "",
   "`main.tsx` wraps the app in these providers, outermost first:",
   "",
   "⟦⟦#each providerOrder⟧⟧- ⟦⟦this⟧⟧⟦⟦#if @last⟧⟧ (innermost)⟦⟦/if⟧⟧",
   "⟦⟦/each⟧⟧",
   "⟦⟦/if⟧⟧",
   "⟦⟦#unless hasProviders⟧⟧",
   "The app renders without any context providers.",
   "⟦⟦/unless⟧⟧",
   "",
   "## License",
   "",
   "⟦⟦license⟧⟧⟦⟦#if author⟧⟧ - ⟦⟦author⟧⟧⟦⟦/if⟧⟧",
   ""]

/-- The imports of providers. -/
def providerImports : List String :=
  ["⟦⟦#if features.i18n⟧⟧import ⟦ I18nextProvider ⟧ from 'react-i18next';",
   "import i18n from './i18n/config';",
   "⟦⟦/if⟧⟧⟦⟦#if features.redux⟧⟧import ⟦ Provider ⟧ from 'react-redux';",
   "import ⟦ store ⟧ from './store/store';",
   "⟦⟦/if⟧⟧⟦⟦#if features.reactRouter⟧⟧import ⟦ BrowserRouter ⟧ from 'react-router-dom';",
   "⟦⟦/if⟧⟧",
   ""]

/-- The opening elements of providers. -/
def providersOpen : List String :=
  ["⟦⟦#if features.i18n⟧⟧    <I18nextProvider i18n=⟦i18n⟧>",
   "⟦⟦/if⟧⟧⟦⟦#if features.redux⟧⟧      <Provider store=⟦store⟧>",
   "⟦⟦/if⟧⟧⟦⟦#if features.reactRouter⟧⟧        <BrowserRouter>",
   "⟦⟦/if⟧⟧",
   ""]

/-- The closing elements of providers. -/
def providersClose : List String :=
  ["⟦⟦#if features.reactRouter⟧⟧        </BrowserRouter>",
   "⟦⟦/if⟧⟧⟦⟦#if features.redux⟧⟧      </Provider>",
   "⟦⟦/if⟧⟧⟦⟦#if features.i18n⟧⟧    </I18nextProvider>",
   "⟦⟦/if⟧⟧",
   ""]

/-- The templates of application sources with their names. -/
def applicationFiles : List (String × List String) :=
  [("main.tsx.hbs", mainSource),
   ("App.tsx.hbs", appSource),
   ("App.css.hbs", appStyle),
   ("vite.config.ts.hbs", buildSettings),
   ("store/store.ts.hbs", storeSource),
   ("store/slices/appSlice.ts.hbs", sliceSource),
   ("i18n/config.ts.hbs", translationSettings),
   ("i18n/locales/en.json.hbs", englishTexts),
   ("i18n/locales/pt.json.hbs", portugueseTexts),
   ("i18n/locales/es.json.hbs", spanishTexts),
   ("POSSIBILITIES.md.hbs", guide),
   ("partials/imports/providers.hbs", providerImports),
   ("partials/providers/open.hbs", providersOpen),
   ("partials/providers/close.hbs", providersClose)]

end Stencil.Bundled
